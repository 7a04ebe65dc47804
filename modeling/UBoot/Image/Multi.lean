import UBoot.Image.Header
import UBoot.Lib.Align

/-!
# Multi-component images (common/image.c)

`image_multi_count` and `image_multi_getimg` on what mkimage wrote. The table of sizes is
written from the files as they are; with -x less of each is appended.
-/

namespace Image

open Memory32

def wordOf (mem : Mem) (p : UInt32) : UInt32 := BigEndian.wordAt (bytesAt mem p 4) 0

def countFrom (mem : Mem) : Nat → UInt32 → Option UInt32
  | 0, _ => none
  | fuel + 1, size =>
    if wordOf mem size = 0 then some 0 else (countFrom mem fuel (size + 4)).map (1 + ·)

def imageMultiCount (fuel : Nat) (mem : Mem) (hdr : UInt32) : Option UInt32 :=
  countFrom mem fuel (getData hdr)

/-- The sum of the first `i` sizes, each rounded up. -/
def offsetOf (mem : Mem) (size : UInt32) : Nat → UInt32
  | 0 => 0
  | i + 1 => offsetOf mem size i + ((wordOf mem (size + UInt32.ofNat (4 * i)) + 3) &&& ~~~3)

def imageMultiGetimg (fuel : Nat) (mem : Mem) (hdr idx : UInt32) : Option (UInt32 × UInt32) :=
  (imageMultiCount fuel mem hdr).map fun count =>
    let size := getData hdr
    let img_data := getData hdr + (count + 1) * 4
    if idx < count then
      (img_data + offsetOf mem size idx.toNat, wordOf mem (size + UInt32.ofNat (4 * idx.toNat)))
    else (0, 0)

variable {mem : Mem} {ws : List UInt32}

lemma roundUp_toNat {x : UInt32} (small : x.toNat + 3 < 4294967296) :
    ((x + 3) &&& ~~~3).toNat = (x.toNat + 3) / 4 * 4 := by
  have mask : (~~~3 : UInt32).toNat = 2 ^ 32 - 1 - (2 ^ 2 - 1) := rfl
  have sum : (x + 3).toNat = x.toNat + 3 := by
    have three : (3 : UInt32).toNat = 3 := rfl
    rw [UInt32.toNat_add, three]
    exact Nat.mod_eq_of_lt small
  rw [UInt32.toNat_and, mask, sum, Align.and_mask (by decide) small, mul_comm]
  rfl

def words (ws : List UInt32) : List UInt8 := ws.flatMap BigEndian.bytes

lemma words_length (ws : List UInt32) : (words ws).length = 4 * ws.length := by
  induction ws with
  | nil => rfl
  | cons w ws ih =>
    rw [words, List.flatMap_cons, List.length_append, BigEndian.bytes_length, ← words, ih,
      List.length_cons]
    omega

lemma words_cons {a w : UInt32} (loaded : bytesAt mem a (words (w :: ws)).length = words (w :: ws))
    :
    wordOf mem a = w ∧ bytesAt mem (a + 4) (words ws).length = words ws := by
  obtain ⟨first, rest⟩ := bytesAt_append.mp loaded
  exact ⟨by rw [wordOf, show bytesAt mem a 4 = BigEndian.bytes w from first,
    BigEndian.wordAt_bytes], rest⟩

lemma next_entry (a : UInt32) (i : Nat) :
    a + UInt32.ofNat (4 * (i + 1)) = a + 4 + UInt32.ofNat (4 * i) := by
  rw [Nat.mul_succ, Nat.add_comm, UInt32.ofNat_add, UInt32.add_assoc]
  rfl

lemma wordOf_at {a w : UInt32} {i : Nat} (loaded : bytesAt mem a (words ws).length = words ws)
    (at_i : ws[i]? = some w) :
    wordOf mem (a + UInt32.ofNat (4 * i)) = w := by
  induction ws generalizing a i with
  | nil => cases at_i
  | cons v ws ih =>
    obtain ⟨first, rest⟩ := words_cons loaded
    cases i with
    | zero =>
      obtain rfl : v = w := Option.some.inj at_i
      change wordOf mem (a + 0) = v
      rw [UInt32.add_zero]
      exact first
    | succ i =>
      rw [next_entry]
      exact ih rest at_i

lemma countFrom_words {a : UInt32} (nonzero : ∀ w ∈ ws, w ≠ 0)
    (loaded : bytesAt mem a (words (ws ++ [0])).length = words (ws ++ [0])) :
    countFrom mem (ws.length + 1) a = some (UInt32.ofNat ws.length) := by
  induction ws generalizing a with
  | nil =>
    rw [countFrom, if_pos (words_cons loaded).1]
    rfl
  | cons w ws ih =>
    obtain ⟨first, rest⟩ := words_cons loaded
    rw [countFrom, first, if_neg (nonzero w List.mem_cons_self), List.length_cons,
      ih (fun v hv => nonzero v (List.mem_cons_of_mem w hv)) rest, Option.map_some,
      add_comm ws.length 1, UInt32.ofNat_add]
    rfl

def written (xflag : Bool) (file : List UInt8) : List UInt8 :=
  file.drop (if xflag then headerSize else 0)

def startOf : List (List UInt8) → Nat → Nat
  | _, 0 => 0
  | [], _ + 1 => 0
  | part :: parts, k + 1 => (part.length + 3) / 4 * 4 + startOf parts k

lemma copyFile_eq {xflag pad : Bool} {file data : List UInt8}
    (copied : copyFile xflag file pad = some data) :
    (written xflag file).length < 2147483648 ∧
      data = written xflag file ++ if pad ∧ (written xflag file).length % 4 ≠ 0 then
        List.replicate (4 - (written xflag file).length % 4) 0 else [] := by
  rw [copyFile] at copied
  split at copied
  · cases copied
  split at copied
  · cases copied
  change (if 2147483648 ≤ (written xflag file).length then none
    else some (written xflag file ++ _)) = some data at copied
  split at copied
  · cases copied
  · rename_i small
    exact ⟨not_le.mp small, (Option.some.inj copied).symm⟩

lemma padded_length {xflag : Bool} {file data : List UInt8}
    (copied : copyFile xflag file true = some data) :
    data.length = ((written xflag file).length + 3) / 4 * 4 := by
  obtain ⟨-, rfl⟩ := copyFile_eq copied
  split
  · rw [List.length_append, List.length_replicate]
    omega
  rename_i whole
  simp only [true_and, Decidable.not_not] at whole
  rw [List.append_nil]
  omega

lemma copyFiles_part {xflag : Bool} {files : List (List UInt8)} {body part : List UInt8} {k : Nat}
    (copied : copyFiles xflag files = some body)
    (at_k : (files.map (written xflag))[k]? = some part) :
    startOf (files.map (written xflag)) k + part.length ≤ body.length ∧
      (body.drop (startOf (files.map (written xflag)) k)).take part.length = part ∧
      part.length < 2147483648 := by
  induction files generalizing body k with
  | nil => cases copied
  | cons file rest ih =>
    cases rest with
    | nil =>
      obtain ⟨small, rfl⟩ := copyFile_eq copied
      cases k with
      | zero =>
        cases at_k
        simp [startOf, small]
      | succ k => cases at_k
    | cons next rest =>
      simp only [copyFiles, Option.bind_eq_bind, Option.bind_eq_some_iff] at copied
      obtain ⟨data, first, more, others, same⟩ := copied
      cases same
      have size := padded_length first
      cases k with
      | zero =>
        cases at_k
        obtain ⟨small, content⟩ := copyFile_eq first
        refine ⟨?_, ?_, small⟩
        · rw [List.length_append]
          simp only [startOf]
          omega
        · rw [content]
          simp [startOf]
      | succ k =>
        obtain ⟨inside, content, small⟩ := ih others at_k
        have start : startOf ((file :: next :: rest).map (written xflag)) (k + 1) =
            data.length + startOf ((next :: rest).map (written xflag)) k := by
          rw [size]
          rfl
        refine ⟨?_, ?_, small⟩
        · rw [List.length_append, start]
          omega
        · rw [start, ← List.drop_drop, List.drop_left]
          exact content

lemma offsetOf_eq {size : UInt32} {parts : List (List UInt8)} {k : Nat}
    (table : ∀ i part, parts[i]? = some part →
      wordOf mem (size + UInt32.ofNat (4 * i)) = UInt32.ofNat part.length)
    (small : ∀ part ∈ parts, part.length < 2147483648) (inside : k ≤ parts.length) :
    offsetOf mem size k = UInt32.ofNat (startOf parts k) := by
  have next (k : Nat) (part : List UInt8) (at_k : parts[k]? = some part) :
      startOf parts (k + 1) = startOf parts k + (part.length + 3) / 4 * 4 := by
    clear table small inside
    induction parts generalizing k with
    | nil => cases at_k
    | cons p ps ih =>
      cases k with
      | zero =>
        obtain rfl : p = part := Option.some.inj at_k
        cases ps <;> simp [startOf]
      | succ k =>
        rw [startOf, ih k at_k, startOf, add_assoc]
  induction k with
  | zero => cases parts <;> rfl
  | succ k ih =>
    obtain ⟨part, at_k⟩ : ∃ part, parts[k]? = some part := ⟨_, List.getElem?_eq_getElem inside⟩
    have bound := small part (List.mem_of_getElem? at_k)
    have length : (UInt32.ofNat part.length).toNat = part.length := by
      rw [UInt32.toNat_ofNat']
      omega
    have rounded : (UInt32.ofNat part.length + 3) &&& ~~~3 =
        UInt32.ofNat ((part.length + 3) / 4 * 4) := by
      apply UInt32.toNat_inj.mp
      rw [roundUp_toNat (by omega), length, UInt32.toNat_ofNat']
      omega
    rw [offsetOf, table k part at_k, ih (Nat.le_of_succ_le inside), rounded, next k part at_k,
      UInt32.ofNat_add]

def ComponentsRead (mem : Mem) (hdr : UInt32) (parts : List (List UInt8)) : Prop :=
  ∃ fuel count, imageMultiCount fuel mem hdr = some count ∧ count.toNat = parts.length ∧
    ∀ k : UInt32,
      (∀ part, parts[k.toNat]? = some part → ∃ off len,
        imageMultiGetimg fuel mem hdr k = some (getData hdr + UInt32.ofNat off, len) ∧
        len.toNat = part.length ∧ off + part.length ≤ (headerAt mem hdr).size.toNat ∧
        bytesAt mem (getData hdr + UInt32.ofNat off) part.length = part) ∧
      (parts.length ≤ k.toNat → imageMultiGetimg fuel mem hdr k = some (0, 0))

lemma sizeTable_eq (files : List (List UInt8)) :
    sizeTable files = words (files.map (fun file => UInt32.ofNat file.length) ++ [0]) := by
  simp [sizeTable, words, List.flatMap_map]

variable {p : Params} {mtime : UInt32} {files : List (List UInt8)} {image : List UInt8}
  {mem : Mem} {hdr : UInt32}

lemma multi_parts (multi : p.isMulti = true) (built : mkimage p mtime files = some image)
    (total : image.length < 4294967296) (loaded : bytesAt mem hdr image.length = image) :
    ∃ body, copyFiles p.xflag files = some body ∧
      (headerAt mem hdr).size.toNat = 4 * (files.length + 1) + body.length ∧
      bytesAt mem (getData hdr) (sizeTable files).length = sizeTable files ∧
      bytesAt mem (getData hdr + UInt32.ofNat (4 * (files.length + 1))) body.length = body := by
  rw [mkimage] at built
  split at built
  · obtain ⟨data, made, rfl⟩ := Option.map_eq_some_iff.mp built
    unfold imageData at made
    rw [if_pos multi] at made
    obtain ⟨body, copied, rfl⟩ := Option.map_eq_some_iff.mp made
    have table : (sizeTable files).length = 4 * (files.length + 1) := by
      rw [sizeTable_eq, words_length, List.length_append, List.length_map]
      rfl
    obtain ⟨header, content⟩ := loaded_parts loaded
    obtain ⟨first, second⟩ := bytesAt_append.mp content
    rw [table] at second
    refine ⟨body, copied, ?_, first, second⟩
    have size : (headerAt mem hdr).size = UInt32.ofNat (sizeTable files ++ body).length := by
      rw [header]
      rfl
    rw [List.length_append, Header.bytes_length] at total
    rw [size, UInt32.toNat_ofNat', Nat.mod_eq_of_lt (by omega), List.length_append, table]
  · cases built

/-- Of an image that mkimage built, all components are read as they were written if and only
if it was not built with -x. -/
theorem components_read_iff (multi : p.isMulti = true) (some_files : files ≠ [])
    (nonempty : ∀ file ∈ files, written p.xflag file ≠ [])
    (built : mkimage p mtime files = some image) (total : image.length < 4294967296)
    (loaded : bytesAt mem hdr image.length = image) :
    ComponentsRead mem hdr (files.map (written p.xflag)) ↔ p.xflag = false := by
  obtain ⟨body, copied, size, table, content⟩ := multi_parts multi built total loaded
  rw [sizeTable_eq] at table
  have stored (i : Nat) (file : List UInt8) (at_i : files[i]? = some file) :
      wordOf mem (getData hdr + UInt32.ofNat (4 * i)) = UInt32.ofNat file.length := by
    apply wordOf_at table
    rw [List.getElem?_append_left (by
      rw [List.length_map]
      exact (List.getElem?_eq_some_iff.mp at_i).1)]
    simp [at_i]
  have short (part : List UInt8) (mem_part : part ∈ files.map (written p.xflag)) :
      part.length < 2147483648 := by
    obtain ⟨k, at_k⟩ := List.getElem?_of_mem mem_part
    exact (copyFiles_part copied at_k).2.2
  have bound := (headerAt mem hdr).size.toNat_lt
  constructor
  · rintro ⟨fuel, count, counted, number, read⟩
    apply Bool.eq_false_iff.mpr
    intro xflag
    obtain ⟨file, rest, rfl⟩ := List.exists_cons_of_ne_nil some_files
    obtain ⟨off, len, got, length, -⟩ := (read 0).1 (written p.xflag file) rfl
    have first : (0 : UInt32) < count := by
      rw [UInt32.lt_iff_toNat_lt, number, List.length_map]
      exact Nat.zero_lt_succ _
    rw [imageMultiGetimg, counted, Option.map_some] at got
    simp only [first, if_true, Option.some.injEq, Prod.mk.injEq] at got
    have stored_len := stored 0 file rfl
    rw [show (4 * (0 : UInt32).toNat) = 4 * 0 from rfl, stored_len] at got
    have written_length : (written p.xflag file).length = file.length - 64 := by
      rw [written, xflag, if_pos rfl, List.length_drop]
      rfl
    have long : 0 < (written p.xflag file).length :=
      List.length_pos_iff.mpr (nonempty file List.mem_cons_self)
    have small := short _ (List.mem_map_of_mem List.mem_cons_self)
    have len_eq := congrArg UInt32.toNat got.2
    rw [UInt32.toNat_ofNat'] at len_eq
    omega
  · intro xflag
    have whole : files.map (written p.xflag) = files := by
      rw [xflag]
      exact List.map_id files
    rw [whole] at short ⊢
    have nonzero : ∀ w ∈ files.map (fun file => UInt32.ofNat file.length), w ≠ 0 := by
      intro w hw zero
      obtain ⟨file, hfile, rfl⟩ := List.mem_map.mp hw
      have some_bytes := nonempty file hfile
      have small := short file hfile
      have length := congrArg UInt32.toNat zero
      rw [UInt32.toNat_ofNat', UInt32.toNat_zero] at length
      rw [xflag] at some_bytes
      have : 0 < file.length := List.length_pos_iff.mpr some_bytes
      omega
    have counted := countFrom_words nonzero table
    rw [List.length_map] at counted
    have number : (UInt32.ofNat files.length).toNat = files.length := by
      rw [UInt32.toNat_ofNat']
      omega
    refine ⟨files.length + 1, UInt32.ofNat files.length, counted, number, fun k => ⟨?_, ?_⟩⟩
    · intro file at_k
      obtain ⟨inside_k, -⟩ := List.getElem?_eq_some_iff.mp at_k
      have at_k' : (files.map (written p.xflag))[k.toNat]? = some file := by rw [whole, at_k]
      obtain ⟨inside, part, small⟩ := copyFiles_part copied at_k'
      rw [whole] at inside part
      have low : k < UInt32.ofNat files.length := by
        rw [UInt32.lt_iff_toNat_lt, number]
        exact inside_k
      have offset := offsetOf_eq stored short (Nat.le_of_lt inside_k)
      have step : (UInt32.ofNat files.length + 1) * 4 = UInt32.ofNat (4 * (files.length + 1)) := by
        apply UInt32.toNat_inj.mp
        rw [UInt32.toNat_mul, UInt32.toNat_add, number, UInt32.toNat_ofNat']
        change (files.length + 1) % 4294967296 * 4 % 4294967296 = 4 * (files.length + 1) % 4294967296
        omega
      refine ⟨4 * (files.length + 1) + startOf files k.toNat, UInt32.ofNat file.length, ?_, ?_, ?_,
        ?_⟩
      · rw [imageMultiGetimg, imageMultiCount, counted, Option.map_some]
        simp only [low, if_true, offset, stored _ _ at_k, step, UInt32.ofNat_add,
          UInt32.add_assoc]
      · rw [UInt32.toNat_ofNat']
        omega
      · omega
      · have cut : body = body.take (startOf files k.toNat) ++
            (body.drop (startOf files k.toNat)).take file.length ++
            (body.drop (startOf files k.toNat)).drop file.length := by
          rw [List.append_assoc, List.take_append_drop, List.take_append_drop]
        have before : (body.take (startOf files k.toNat)).length = startOf files k.toNat := by
          rw [List.length_take]
          omega
        rw [cut, List.append_assoc] at content
        obtain ⟨-, later⟩ := bytesAt_append.mp content
        obtain ⟨here, -⟩ := bytesAt_append.mp later
        rw [part, before, UInt32.add_assoc, ← UInt32.ofNat_add] at here
        exact here
    · intro past
      have high : ¬ k < UInt32.ofNat files.length := by
        rw [UInt32.lt_iff_toNat_lt, number]
        exact Nat.not_lt.mpr past
      rw [imageMultiGetimg, imageMultiCount, counted, Option.map_some]
      simp only [high, if_false]

def multiParams (xflag : Bool) : Params := ⟨0x30008000, 0x30008040, 5, 2, typeMulti, 0, [], xflag⟩

def multiImage (xflag : Bool) (files : List (List UInt8)) : List UInt8 :=
  (mkimage (multiParams xflag) 0 files).getD []
def multiMem (xflag : Bool) (files : List (List UInt8)) : Mem :=
  fun a => (multiImage xflag files).getD a.toNat 0

theorem components_read_kernel_and_ramdisk :
    ComponentsRead (multiMem false [[1, 2, 3], [4, 5]]) 0 [[1, 2, 3], [4, 5]] := by
  have built : mkimage (multiParams false) 0 [[1, 2, 3], [4, 5]] =
      some (multiImage false [[1, 2, 3], [4, 5]]) := rfl
  exact (components_read_iff rfl (by decide) (by decide) built (by decide)
    (by decide +kernel)).mpr rfl

/-- With -x one byte is written, and 65 are read: the space of the header is counted. -/
theorem xip_component_too_long :
    let file := List.replicate 64 0xff ++ [7]
    mkimage (multiParams true) 0 [file] = some (multiImage true [file]) ∧
      copyFiles true [file] = some [7] ∧
      imageMultiGetimg 2 (multiMem true [file]) 0 0 = some (72, 65) := by
  decide +kernel

end Image
