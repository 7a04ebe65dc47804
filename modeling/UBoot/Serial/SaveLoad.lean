import UBoot.Env.PlainVariable
import UBoot.Serial.SRecord

/-!
# Saving memory and loading it again

The records of `save_serial` put every byte where it belongs. `filesize` is another matter:
`load_serial` takes it from the lowest and the highest address it has seen.
-/

namespace SRecord

open EnvArea EnvMap PlainVariable

section Loading

variable (cfg : SetEnv.Config) (flash : Flash) (board : SetEnv.Board) (offset : UInt32)

lemma loadLoop_record (fuel : Nat) (a : UInt32) (bs : List UInt8) (short : bs.length ≤ 250)
    (ram : flash.addr2info (a + offset) = false) (rest : Text) (s : Load) :
    loadLoop cfg flash board offset (fuel + 1) (recordBody a bs ++ 10 :: rest) s =
      loadLoop cfg flash board offset fuel rest
        ({ s with mem := memcpy s.mem (a + offset) bs }.span (a + offset) bs.length) := by
  have hline := readRecord_line srecMaxreclen (recordBody_printable a bs)
    (by rw [recordBody_length, srecMaxreclen]; omega) [] rest
  have hcount : ¬ (bs.length : Int) < 0 := by omega
  rw [List.nil_append] at hline
  rw [loadLoop]
  simp only [hline, srecDecode_body a short, ram, if_neg hcount]
  rfl

lemma loadLoop_start (fuel : Nat) (rest : Text) (s : Load) :
    loadLoop cfg flash board offset (fuel + 1) (srec3Start ++ rest) s =
      loadLoop cfg flash board offset fuel rest s := by
  rw [loadLoop]
  rfl

lemma loadLoop_end (fuel : Nat) (s : Load) :
    loadLoop cfg flash board offset (fuel + 1) srec3End s =
      match SetEnv.doSetenv cfg board filesizeName
        [hexText (s.endAddr - s.startAddr + 1).toNat] with
      | none => .crash
      | some r => .done 0 r.board s.mem := by
  rw [loadLoop]
  rfl

end Loading

/-- `n` bytes of `m` at `a` have been copied by `offset`. -/
def Copied (m : Mem) (a offset : UInt32) (n : Nat) (target mem : Mem) : Prop :=
  ∀ y, mem y = if (y - (a + offset)).toNat < n then m (y - offset) else target y

lemma memcpy_copied (m : Mem) (a offset : UInt32) (n : Nat) (target : Mem) :
    Copied m a offset n target (memcpy target (a + offset) (bytesAt m a n)) := by
  intro y
  unfold memcpy bytesAt
  split_ifs with h
  · rw [List.getElem?_map, List.getElem?_range h]
    change m (a + UInt32.ofNat (y - (a + offset)).toNat) = _
    rw [UInt32.ofNat_toNat]
    congr 1
    grind
  · rw [List.getElem?_eq_none (by simpa using h)]
    rfl

lemma copied_trans {m target mid mem : Mem} {a offset : UInt32} {k n : Nat}
    (small : k + n < 4294967296) (first : Copied m a offset k target mid)
    (second : Copied m (a + UInt32.ofNat k) offset n mid mem) :
    Copied m a offset (k + n) target mem := by
  intro y
  have hshift : (y - (a + UInt32.ofNat k + offset)).toNat =
      (4294967296 - k + (y - (a + offset)).toNat) % 4294967296 := by
    have heq : y - (a + UInt32.ofNat k + offset) = (y - (a + offset)) - UInt32.ofNat k := by grind
    have hk : (UInt32.ofNat k).toNat = k := UInt32.toNat_ofNat_of_lt' (by simp only [UInt32.size]; omega)
    rw [heq, UInt32.toNat_sub, hk]
  have hlt : (y - (a + offset)).toNat < 4294967296 := (y - (a + offset)).toNat_lt
  rw [second y, first y, hshift]
  by_cases hin : (y - (a + offset)).toNat < k
  · rw [if_neg (by omega), if_pos hin, if_pos (by omega)]
  · by_cases hmore : (y - (a + offset)).toNat < k + n
    · rw [if_pos (by omega), if_pos hmore]
    · rw [if_neg (by omega), if_neg hin, if_neg hmore]

/-- What `start_addr` and `end_addr` are after `n` bytes in records of sixteen from address `b`
on. Once the addresses wrap, only the last record before zero and the first behind it count. -/
structure Span (b n st en : Nat) : Prop where
  none : n = 0 → st = 4294967295 ∧ en = 0
  inside : 0 < n → b + n ≤ 4294967296 → st = b ∧ en = b + n - 1
  single : 4294967296 < b + n → n ≤ 16 → st = b ∧ en = b + n - 1 - 4294967296
  firstWraps : 4294967296 < b + n → 16 < n → 4294967296 < b + 16 →
    st = b + 16 - 4294967296 ∧ en = b + n - 1 - 4294967296
  aligned : 4294967296 < b + n → 16 < n → b % 16 = 0 → st = 0 ∧ en = 4294967295
  wraps : 4294967296 < b + n → 16 < n → b + 16 ≤ 4294967296 → b % 16 ≠ 0 →
    en = b + (4294967296 - b) / 16 * 16 - 1 ∧
      (n ≤ (4294967296 - b) / 16 * 16 + 16 → st = b) ∧
      ((4294967296 - b) / 16 * 16 + 16 < n → st = b + (4294967296 - b) / 16 * 16 + 16 - 4294967296)

lemma span_step {b n k st en : Nat} (h : Span b n st en) (hb : b < 4294967296)
    (full : n % 16 = 0) (hk : 0 < k) (hk16 : k ≤ 16) (hn : n + k < 4294967296) :
    Span b (n + k) (min st ((b + n) % 4294967296)) (max en ((b + n + k - 1) % 4294967296)) := by
  obtain ⟨none, inside, single, firstWraps, aligned, wraps⟩ := h
  rcases Nat.eq_zero_or_pos n with rfl | hpos
  · obtain ⟨rfl, rfl⟩ := none rfl
    constructor <;> omega
  rcases lt_or_ge 4294967296 (b + n) with hwrap | hno
  · rcases lt_or_ge 16 n with hmany | hone
    · rcases lt_or_ge 4294967296 (b + 16) with hfirst | hlater
      · obtain ⟨hst, hen⟩ := firstWraps hwrap hmany hfirst
        constructor <;> omega
      by_cases haligned : b % 16 = 0
      · obtain ⟨rfl, rfl⟩ := aligned hwrap hmany haligned
        constructor <;> omega
      · obtain ⟨rfl, hst, hst'⟩ := wraps hwrap hmany hlater haligned
        constructor <;> omega
    · obtain ⟨hst, hen⟩ := single hwrap hone
      constructor <;> omega
  · obtain ⟨rfl, rfl⟩ := inside hpos hno
    constructor <;> omega

lemma span_size {b n st en : Nat} (h : Span b n st en) (hb : b < 4294967296)
    (hn : n < 4294967296) :
    (4294967296 - st + en + 1) % 4294967296 = n ↔
      n ≠ 0 ∧ (b + n ≤ 4294967296 ∨ n ≤ 16 ∨
        (n = 4294967280 ∧ b % 16 ≠ 0 ∧ 32 < b ∧ b ≤ 4294967280)) := by
  obtain ⟨none, inside, single, firstWraps, aligned, wraps⟩ := h
  rcases Nat.eq_zero_or_pos n with rfl | hpos
  · obtain ⟨rfl, rfl⟩ := none rfl
    omega
  rcases lt_or_ge 4294967296 (b + n) with hwrap | hno
  · rcases lt_or_ge 16 n with hmany | hone
    · rcases lt_or_ge 4294967296 (b + 16) with hfirst | hlater
      · obtain ⟨hst, hen⟩ := firstWraps hwrap hmany hfirst
        omega
      by_cases haligned : b % 16 = 0
      · obtain ⟨rfl, rfl⟩ := aligned hwrap hmany haligned
        omega
      obtain ⟨hen, hst, hst'⟩ := wraps hwrap hmany hlater haligned
      rcases lt_or_ge ((4294967296 - b) / 16 * 16 + 16) n with hbehind | hlast
      · have hst := hst' hbehind
        omega
      · have hst := hst hlast
        omega
    · obtain ⟨hst, hen⟩ := single hwrap hone
      omega
  · obtain ⟨rfl, rfl⟩ := inside hpos hno
    omega

lemma span_toNat (s : Load) (a : UInt32) {k : Nat} (hk : 0 < k) (small : k < 4294967296) :
    (s.span a k).startAddr.toNat = min s.startAddr.toNat a.toNat ∧
      (s.span a k).endAddr.toNat =
        max s.endAddr.toNat ((a.toNat + k - 1) % 4294967296) := by
  have hlast : (a + UInt32.ofNat k - 1).toNat = (a.toNat + k - 1) % 4294967296 := by
    have hk' : (UInt32.ofNat k).toNat = k :=
      UInt32.toNat_ofNat_of_lt' (by simp only [UInt32.size]; omega)
    have hone : (1 : UInt32).toNat = 1 := rfl
    rw [UInt32.toNat_sub, UInt32.toNat_add, hk', hone]
    omega
  constructor
  · simp only [Load.span, UInt32.lt_iff_toNat_lt]
    split_ifs with h
    · omega
    · omega
  · simp only [Load.span, UInt32.lt_iff_toNat_lt, hlast]
    split_ifs with h
    · rw [hlast]
      omega
    · omega

lemma loadLoop_records (cfg : SetEnv.Config) (flash : Flash) (board : SetEnv.Board)
    (offset : UInt32) (m : Mem) {b : Nat} (hb : b < 4294967296) (n : Nat) (fuel : Nat)
    (enough : n < fuel) (a : UInt32) (s : Load) (done : Nat) (full : n ≠ 0 → done % 16 = 0)
    (small : done + n < 4294967296) (place : (a + offset).toNat = (b + done) % 4294967296)
    (ram : ∀ i < n, flash.addr2info (a + UInt32.ofNat i + offset) = false)
    (span : Span b done s.startAddr.toNat s.endAddr.toNat) :
    ∃ fuel' s', loadLoop cfg flash board offset fuel (saveLoop m n a 0 0 [] ++ srec3End) s =
        loadLoop cfg flash board offset (fuel' + 1) srec3End s' ∧
      Copied m a offset n s.mem s'.mem ∧
      Span b (done + n) s'.startAddr.toNat s'.endAddr.toNat := by
  induction n using Nat.strongRecOn generalizing fuel a s done with
  | ind n ih =>
    obtain ⟨fuel, rfl⟩ := Nat.exists_eq_add_of_lt enough
    rcases Nat.eq_zero_or_pos n with rfl | hpos
    · refine ⟨0 + fuel, s, rfl, ?_, span⟩
      intro y
      rw [if_neg (Nat.not_lt_zero _)]
    obtain ⟨k, hk⟩ : ∃ k, min 16 n = k := ⟨_, rfl⟩
    have hk16 : k ≤ 16 := by omega
    have hkn : k ≤ n := by omega
    have hkpos : 0 < k := by omega
    have hfirst : flash.addr2info (a + offset) = false := by
      have h := ram 0 hpos
      rw [show UInt32.ofNat 0 = 0 from rfl, UInt32.add_zero] at h
      exact h
    have hofNat : (UInt32.ofNat k).toNat = k :=
      UInt32.toNat_ofNat_of_lt' (by simp only [UInt32.size]; omega)
    have hstep := loadLoop_record cfg flash board offset (n + fuel) a (bytesAt m a k)
      (by simp; omega) hfirst (saveLoop m (n - k) (a + UInt32.ofNat k) 0 0 [] ++ srec3End) s
    rw [bytesAt_length] at hstep
    let next : Load := { s with mem := memcpy s.mem (a + offset) (bytesAt m a k) }.span (a + offset) k
    obtain ⟨hst, hen⟩ := span_toNat { s with mem := memcpy s.mem (a + offset) (bytesAt m a k) }
      (a + offset) hkpos (by omega)
    have hspan : Span b (done + k) next.startAddr.toNat next.endAddr.toNat := by
      have h := span_step span hb (full (by omega)) hkpos hk16 (by omega)
      have hwrap : ((b + done) % 4294967296 + k - 1) % 4294967296 =
          (b + done + k - 1) % 4294967296 := by omega
      rw [hst, hen, place, hwrap]
      exact h
    obtain ⟨fuel', s', hrun, hcopied, hspan'⟩ := ih (n - k) (by omega) (n + fuel) (by omega)
      (a + UInt32.ofNat k) next (done + k) (by omega) (by omega)
      (by
        have hcomm : a + UInt32.ofNat k + offset = (a + offset) + UInt32.ofNat k := by grind
        rw [hcomm, UInt32.toNat_add, hofNat, place]
        omega)
      (by
        intro i hi
        have h := ram (k + i) (by omega)
        rw [UInt32.ofNat_add, ← UInt32.add_assoc] at h
        exact h)
      hspan
    refine ⟨fuel', s', ?_, ?_, ?_⟩
    · rw [saveLoop_record m a hpos, hk, List.append_assoc, List.cons_append, hstep]
      exact hrun
    · have hall := copied_trans (by omega) (memcpy_copied m a offset k s.mem) hcopied
      rw [Nat.add_sub_cancel' hkn] at hall
      exact hall
    · rw [add_assoc, Nat.add_sub_cancel' hkn] at hspan'
      exact hspan'

def hexValue (t : Text) : Nat := t.foldl (fun v c => v * 16 + (hex1Bin c).getD 0) 0

lemma hexValue_hexText (n : Nat) : hexValue (hexText n) = n := by
  have hdigit : ∀ v k, k < 16 → hexValue ([] ++ [hexChar k]) = k ∧
      ∀ t, hexValue t = v → hexValue (t ++ [hexChar k]) = v * 16 + k := by
    intro v k hk
    have hchar := (hexChar_spec hk).1
    refine ⟨by simp [hexValue, hchar], ?_⟩
    intro t ht
    rw [hexValue, List.foldl_append, ← hexValue, ht]
    simp [hchar]
  induction n using Nat.strongRecOn with
  | ind n ih =>
    rw [hexText]
    split_ifs with hsmall
    · exact (hdigit 0 n hsmall).1
    · rw [(hdigit (n / 16) (n % 16) (Nat.mod_lt _ (by omega))).2 _ (ih (n / 16) (by omega))]
      omega

lemma hexText_no_nul (n : Nat) : (0 : UInt8) ∉ hexText n := by
  have hdigit : ∀ k, k < 16 → (0 : UInt8) ≠ hexChar k := by
    intro k hk heq
    have hge := (hexChar_spec hk).2
    rw [← heq] at hge
    exact absurd hge (by decide)
  induction n using Nat.strongRecOn with
  | ind n ih =>
    rw [hexText]
    split_ifs with hsmall
    · simpa using hdigit n hsmall
    · rw [List.mem_append, not_or]
      exact ⟨ih (n / 16) (by omega), by simpa using hdigit (n % 16) (Nat.mod_lt _ (by omega))⟩

def filesize : Name := ⟨filesizeName, by decide⟩

def sizeText (n : Nat) : CStr := ⟨hexText n, hexText_no_nul n⟩

lemma filesize_plain : Plain filesize := by decide

lemma getenv_filesize {cfg : SetEnv.Config} {board : SetEnv.Board} {es : List Entry}
    (h : Stores cfg.envSize board.env.data es) (distinct : Distinct es) (header n : Nat) :
    ∃ r, SetEnv.doSetenv cfg board filesizeName [hexText n] = some r ∧
      SetEnv.getenv cfg.envSize header r.board.env.data filesizeName =
        some (if SetEnvSpec.TooLong cfg.envSize es filesize [sizeText n] then none
          else some (hexText n)) := by
  by_cases hlong : SetEnvSpec.TooLong cfg.envSize es filesize [sizeText n]
  · obtain ⟨r, hr, hstores⟩ := set_overflows h filesize_plain hlong
    refine ⟨r, hr, ?_⟩
    rw [if_pos hlong]
    refine (getenv_of_stores hstores header filesize).trans ?_
    rw [lookup_erased distinct]
    rfl
  · obtain ⟨r, hr, hstores⟩ := set_stores h filesize_plain hlong
    refine ⟨r, hr, ?_⟩
    rw [if_neg hlong]
    refine (getenv_of_stores hstores header filesize).trans ?_
    rw [lookup_stored distinct]
    rfl

/-- The characters `save_serial (a, count)` writes, given to `load_serial (offset)`, bring back
the bytes, nothing else, and their number. -/
def RoundTrip (cfg : SetEnv.Config) (flash : Flash) (board : SetEnv.Board) (header : Nat)
    (m target : Mem) (a count offset : UInt32) : Prop :=
  ∃ addr board' mem,
    loadSerial cfg flash board target offset (saveSerial m a count) = .done addr board' mem ∧
      Copied m a offset count.toNat target mem ∧
      SetEnv.getenv cfg.envSize header board'.env.data filesizeName =
        some (some (hexText count.toNat))

/-- There is something to load, and the addresses it goes to do not wrap, unless it is one record
(or 2^32 - 16 bytes, not at a multiple of 16, wrapping behind the second record and in front of
the last but one). -/
def RightSize (b count : Nat) : Prop :=
  count ≠ 0 ∧ (b + count ≤ 4294967296 ∨ count ≤ 16 ∨
    (count = 4294967280 ∧ b % 16 ≠ 0 ∧ 32 < b ∧ b ≤ 4294967280))

lemma saveLoop_length (m : Mem) (a : UInt32) (n : Nat) :
    n ≤ (saveLoop m n a 0 0 []).length := by
  induction n using Nat.strongRecOn generalizing a with
  | ind n ih =>
    rcases Nat.eq_zero_or_pos n with rfl | hpos
    · exact Nat.zero_le _
    have hrest := ih (n - min 16 n) (by omega) (a + UInt32.ofNat (min 16 n))
    rw [saveLoop_record m a hpos, List.length_append, List.length_cons, recordBody_length,
      bytesAt_length]
    omega

lemma load_saved {cfg : SetEnv.Config} {flash : Flash} {board : SetEnv.Board}
    {es : List Entry} (h : Stores cfg.envSize board.env.data es) (distinct : Distinct es)
    (header : Nat) (m target : Mem) (a count offset : UInt32)
    (ram : ∀ i < count.toNat, flash.addr2info (a + UInt32.ofNat i + offset) = false) :
    ∃ board' mem size,
      loadSerial cfg flash board target offset (saveSerial m a count) = .done 0 board' mem ∧
      Copied m a offset count.toNat target mem ∧
      (size = count.toNat ↔ RightSize (a + offset).toNat count.toNat) ∧
      (count.toNat = 0 → size = 2) ∧
      SetEnv.getenv cfg.envSize header board'.env.data filesizeName =
        some (if SetEnvSpec.TooLong cfg.envSize es filesize [sizeText size] then none
          else some (hexText size)) := by
  have hcount : count.toNat < 4294967296 := count.toNat_lt
  have hb : (a + offset).toNat < 4294967296 := (a + offset).toNat_lt
  have hlen := saveLoop_length m a count.toNat
  have hstart : Span (a + offset).toNat 0 4294967295 0 := by constructor <;> omega
  obtain ⟨fuel, s, hrun, hcopied, hspan⟩ := loadLoop_records cfg flash board offset m hb
    count.toNat (saveSerial m a count).length
    (by simp only [saveSerial, List.length_append, srec3Start, List.length_cons]; omega)
    a ⟨target, ~~~ 0, 0⟩ 0 (fun _ => rfl) (by omega) (by omega) ram hstart
  rw [zero_add] at hspan
  obtain ⟨r, hset, hget⟩ := getenv_filesize h distinct header (s.endAddr - s.startAddr + 1).toNat
  have hsize : (s.endAddr - s.startAddr + 1).toNat =
      (4294967296 - s.startAddr.toNat + s.endAddr.toNat + 1) % 4294967296 := by
    have hone : (1 : UInt32).toNat = 1 := rfl
    rw [UInt32.toNat_add, UInt32.toNat_sub, hone]
    omega
  refine ⟨r.board, s.mem, _, ?_, hcopied, ?_, ?_, hget⟩
  · have hend := loadLoop_end cfg flash board offset fuel s
    rw [hset] at hend
    rw [loadSerial, saveSerial, List.append_assoc, loadLoop_start]
    rw [saveSerial, List.append_assoc] at hrun
    exact hrun.trans hend
  · rw [hsize]
    exact span_size hspan hb hcount
  · intro hzero
    obtain ⟨hst, hen⟩ := hspan.none hzero
    rw [hsize, hst, hen]

/-- The round trip fails exactly where `filesize` is wrong or finds no room. -/
theorem round_trip_iff {cfg : SetEnv.Config} {flash : Flash} {board : SetEnv.Board}
    {es : List Entry} (h : Stores cfg.envSize board.env.data es) (distinct : Distinct es)
    (header : Nat) (m target : Mem) (a count offset : UInt32)
    (ram : ∀ i < count.toNat, flash.addr2info (a + UInt32.ofNat i + offset) = false) :
    RoundTrip cfg flash board header m target a count offset ↔
      RightSize (a + offset).toNat count.toNat ∧
        ¬ SetEnvSpec.TooLong cfg.envSize es filesize [sizeText count.toNat] := by
  obtain ⟨board', mem, size, hload, hcopied, hsize, -, hget⟩ :=
    load_saved h distinct header m target a count offset ram
  constructor
  · rintro ⟨addr, board'', mem', hdone, -, hfile⟩
    rw [hload] at hdone
    obtain ⟨-, rfl, -⟩ := Outcome.done.inj hdone
    rw [hget] at hfile
    by_cases hlong : SetEnvSpec.TooLong cfg.envSize es filesize [sizeText size]
    · rw [if_pos hlong] at hfile
      exact absurd hfile (by simp)
    · rw [if_neg hlong] at hfile
      have hvalue := congrArg hexValue (Option.some.inj (Option.some.inj hfile))
      rw [hexValue_hexText, hexValue_hexText] at hvalue
      rw [hvalue] at hlong
      exact ⟨hsize.mp hvalue, hlong⟩
  · rintro ⟨hright, hfits⟩
    have hvalue := hsize.mpr hright
    rw [hvalue, if_neg hfits] at hget
    exact ⟨0, board', mem, hload, hcopied, hget⟩

-- an empty environment of 64 bytes, and no flash chips
def boardEmpty : SetEnv.Board := ⟨⟨0, 0, fun _ => 0⟩, 0, 115200, 0, 0, []⟩
def cfgSmall : SetEnv.Config := ⟨64, [], fun _ _ => 0, []⟩
def noFlash : Flash := ⟨fun _ => false, fun _ _ m => (0, m)⟩

lemma boardEmpty_distinct : Distinct [] := ⟨by decide, by decide⟩

lemma boardEmpty_stored : Stores cfgSmall.envSize boardEmpty.env.data [] := by
  refine ⟨?_, by decide⟩
  simp [image, closing, ByteMemory.Holds, boardEmpty]

theorem round_trip_iff_twenty :
    (∀ i < (20 : UInt32).toNat,
      noFlash.addr2info ((0x30000000 : UInt32) + UInt32.ofNat i + 0x100) = false) ∧
    RoundTrip cfgSmall noFlash boardEmpty 4 (fun a => a.toUInt8) (fun _ => 0) 0x30000000 20 0x100 := by
  have htext : sizeText (20 : UInt32).toNat = ⟨[49, 52], by decide⟩ := by
    apply Subtype.ext
    change hexText 20 = _
    rw [hexText, hexText]
    decide
  refine ⟨fun _ _ => rfl, (round_trip_iff boardEmpty_stored boardEmpty_distinct
    4 _ _ 0x30000000 20 0x100 (fun _ _ => rfl)).mpr ⟨?_, ?_⟩⟩
  · refine ⟨by decide, Or.inl (by decide)⟩
  · rw [htext]
    decide

/-- With nothing to save, two bytes are reported. -/
theorem nothing_saved_two_reported :
    ¬ RoundTrip cfgSmall noFlash boardEmpty 4 (fun _ => 0) (fun _ => 0) 0x30000000 0 0 ∧
      ∃ board' mem, loadSerial cfgSmall noFlash boardEmpty (fun _ => 0) 0
          (saveSerial (fun _ => 0) 0x30000000 0) = .done 0 board' mem ∧
        SetEnv.getenv 64 4 board'.env.data filesizeName = some (some [50]) := by
  obtain ⟨board', mem, size, hload, -, -, hzero, hget⟩ := load_saved boardEmpty_stored
    boardEmpty_distinct 4 (fun _ => 0) (fun _ => 0) 0x30000000 0 0
    (show ∀ i < (0 : UInt32).toNat, noFlash.addr2info (0x30000000 + UInt32.ofNat i + 0) = false
      from fun _ _ => rfl)
  have hsize : size = 2 := hzero rfl
  have htext : hexText 2 = [50] := by rw [hexText]; decide
  have hfits : ¬ SetEnvSpec.TooLong cfgSmall.envSize [] filesize [sizeText 2] := by
    have hval : sizeText 2 = ⟨[50], by decide⟩ := Subtype.ext htext
    rw [hval]
    decide
  rw [hsize, htext] at hget
  have hfile : SetEnv.getenv 64 4 board'.env.data filesizeName = some (some [50]) := by
    rw [if_neg hfits] at hget
    exact hget
  refine ⟨?_, board', mem, hload, hfile⟩
  rintro ⟨addr, board'', mem', hdone, -, hcount⟩
  rw [hload] at hdone
  obtain ⟨-, rfl, -⟩ := Outcome.done.inj hdone
  have hnone : hexText 0 = [48] := by rw [hexText]; decide
  have hcount : SetEnv.getenv 64 4 board'.env.data filesizeName = some (some (hexText 0)) := hcount
  rw [hfile, hnone] at hcount
  exact absurd hcount (by decide)

end SRecord
