import Mathlib.Algebra.Group.Nat.Defs
import UBoot.Env.SetEnv

/-!
# S-records over the console (common/s_record.c, common/cmd_load.c)

`save_serial` writes memory as S3 records, `load_serial` reads records into memory. Memory
has 32-bit addresses. Nobody presses ^C while the records are written, and the console is
the serial line the records come from.
-/

namespace SRecord

abbrev Text := List UInt8

abbrev Mem := UInt32 → UInt8

def memcpy (m : Mem) (a : UInt32) (bs : List UInt8) : Mem :=
  fun i => bs[(i - a).toNat]?.getD (m i)

def hex1Bin (c : UInt8) : Option Nat :=
  if 48 ≤ c ∧ c ≤ 57 then some (c.toNat - 48)
  else if 97 ≤ c ∧ c ≤ 102 then some (c.toNat + 10 - 97)
  else if 65 ≤ c ∧ c ≤ 70 then some (c.toNat + 10 - 65)
  else none

/-- The value of two characters, and the text behind them; the NUL is not a digit. -/
def hex2Bin : Text → Option (Nat × Text)
  | c :: d :: s => match hex1Bin c, hex1Bin d with
    | some i, some j => some (i * 16 + j, s)
    | _, _ => none
  | _ => none

inductive Decoded where
  | empty                    -- SREC_EMPTY
  | badType                  -- SREC_E_BADTYPE
  | noSrec                   -- SREC_E_NOSREC
  | badChecksum              -- SREC_E_BADCHKS
  | record (type : UInt8) (count : Int) (addr : UInt32) (data : List UInt8)
  deriving DecidableEq

def skipToS : Text → Text
  | [] => []
  | c :: t => if c = 83 then t else skipToS t

def readBytes : Nat → Text → Option (List UInt8 × Text)
  | 0, input => some ([], input)
  | n + 1, input => match hex2Bin input with
    | none => none
    | some (v, input) => match readBytes n input with
      | none => none
      | some (bs, input) => some (UInt8.ofNat v :: bs, input)

def addrBytes (type : UInt8) : Option Nat :=
  if type = 51 ∨ type = 55 then some 4
  else if type = 50 ∨ type = 56 then some 3
  else if type = 48 ∨ type = 49 ∨ type = 53 ∨ type = 57 then some 2
  else none

/-- `*addr <<= 8; *addr += v`, once for each byte. -/
def addrValue (bs : List UInt8) : UInt32 :=
  bs.foldl (fun addr v => (addr <<< 8) + v.toUInt32) 0

def srecDecode (input : Text) : Decoded :=
  match skipToS input with
  | [] => .empty
  | type :: input => match hex2Bin input with
    | none => .noSrec
    | some (length, input) => match addrBytes type with
      | none => .badType
      | some k => match readBytes k input with
        | none => .noSrec
        | some (addr, input) =>
          -- a count record has no data, whatever its length says
          let count : Int := if type = 53 then 0 else length - (k + 1)
          match readBytes count.toNat input with
          | none => .noSrec
          | some (data, input) => match hex2Bin input with
            | none => .noSrec
            | some (v, _) =>
              let chksum := (addr ++ data).foldl (· + ·) (UInt8.ofNat length)
              if UInt8.ofNat v = ~~~ chksum then .record type count (addrValue addr) data
              else .badChecksum

def hexChar (n : Nat) : UInt8 := if n < 10 then UInt8.ofNat (48 + n) else UInt8.ofNat (55 + n)

/-- `%02X`, and `%08lX`: the `k` lowest digits. -/
def hexField : Nat → Nat → Text
  | 0, _ => []
  | k + 1, n => hexField k (n / 16) ++ [hexChar (n % 16)]

def hexText (n : Nat) : Text :=
  if n < 16 then [hexChar n] else hexText (n / 16) ++ [hexChar (n % 16)]

-- "S0030000FC\n" and "S70500000000FA\n"
def srec3Start : Text := [83, 48, 48, 51, 48, 48, 48, 48, 70, 67, 10]
def srec3End : Text := [83, 55, 48, 53, 48, 48, 48, 48, 48, 48, 48, 48, 70, 65, 10]

def srecBytesPerRecord : Nat := 16

def srec3Format (length : Nat) (address : UInt32) (data : Text) (checksum : Nat) : Text :=
  [83, 51] ++ hexField 2 length ++ hexField 8 address.toNat ++ data ++ hexField 2 checksum ++ [10]

def addressSum (address : UInt32) : Nat :=
  address.toNat % 256 + address.toNat / 256 % 256 + address.toNat / 65536 % 256 +
    address.toNat / 16777216 % 256

def dumpRecord (address : UInt32) (reclen checksum : Nat) (data : Text) : Text :=
  let length := 4 + reclen + 1
  let checksum := checksum + (length % 256 + length / 256 % 256) + addressSum address
  srec3Format length address data (255 - checksum % 256)

def saveLoop (m : Mem) : Nat → UInt32 → Nat → Nat → Text → Text
  | 0, _, _, _, _ => []
  | count + 1, address, reclen, checksum, data =>
    let c := m (address + UInt32.ofNat reclen)
    let checksum := checksum + c.toNat
    let data := data ++ hexField 2 c.toNat
    let reclen := reclen + 1
    if reclen = srecBytesPerRecord ∨ count = 0 then
      dumpRecord address reclen checksum data ++
        saveLoop m count (address + UInt32.ofNat reclen) 0 0 []
    else saveLoop m count address reclen checksum data

/-- `save_serial`; with nothing to save the body of the loop does nothing. -/
def saveSerial (m : Mem) (address count : UInt32) : Text :=
  srec3Start ++ saveLoop m count.toNat address 0 0 [] ++ srec3End

def srecMaxreclen : Nat := 512 + 4

inductive ReadRecord where
  | waits                              -- the line has nothing more to read
  | aborted                            -- NUL or ^C
  | line (buf : Text) (rest : Text)

def readRecord : Nat → Text → Text → ReadRecord
  | 0, buf, stream => .line buf stream
  | _ + 1, _, [] => .waits
  | len + 1, buf, c :: stream =>
    if c = 13 ∨ c = 10 then .line buf stream
    else if c = 0 ∨ c = 3 then .aborted
    else readRecord len (buf ++ [c]) stream

/-- The flash chips: `addr2info`, and what `flash_write` returns and leaves. -/
structure Flash where
  addr2info : UInt32 → Bool
  flashWrite : List UInt8 → UInt32 → Mem → Int × Mem

structure Load where
  mem : Mem
  startAddr : UInt32
  endAddr : UInt32

inductive Outcome where
  | waits
  | crash                    -- a negative length, or setenv outside the environment
  | failed (mem : Mem)       -- ~0
  | done (addr : UInt32) (board : SetEnv.Board) (mem : Mem)

def filesizeName : Text := [102, 105, 108, 101, 115, 105, 122, 101]

/-- `if (store_addr < start_addr) ...; if (store_addr + binlen - 1 > end_addr) ...`. -/
def Load.span (s : Load) (storeAddr : UInt32) (binlen : Nat) : Load :=
  let last := storeAddr + UInt32.ofNat binlen - 1
  { s with
    startAddr := if storeAddr < s.startAddr then storeAddr else s.startAddr
    endAddr := if s.endAddr < last then last else s.endAddr }

/-- The loop of `load_serial`. To flash a negative count is passed on as it is; here `flash_write`
gets no bytes then, as `srec_decode` has stored none. -/
def loadLoop (cfg : SetEnv.Config) (flash : Flash) (board : SetEnv.Board) (offset : UInt32) :
    Nat → Text → Load → Outcome
  | 0, _, _ => .waits
  | fuel + 1, stream, s =>
    match readRecord srecMaxreclen [] stream with
    | .waits => .waits
    | .aborted => .failed s.mem
    | .line record rest => match srecDecode record with
      | .empty => loadLoop cfg flash board offset fuel rest s
      | .badType => .failed s.mem
      | .noSrec => .failed s.mem
      | .badChecksum => .failed s.mem
      | .record type count addr data =>
        if type = 49 ∨ type = 50 ∨ type = 51 then
          let storeAddr := addr + offset
          if flash.addr2info storeAddr then
            let (rc, mem) := flash.flashWrite data storeAddr s.mem
            if rc ≠ 0 then .failed mem
            else loadLoop cfg flash board offset fuel rest
              ({ s with mem := mem }.span storeAddr data.length)
          else if count < 0 then .crash
          else loadLoop cfg flash board offset fuel rest
            ({ s with mem := memcpy s.mem storeAddr data }.span storeAddr data.length)
        else if type = 55 ∨ type = 56 ∨ type = 57 then
          let size := s.endAddr - s.startAddr + 1
          match SetEnv.doSetenv cfg board filesizeName [hexText size.toNat] with
          | none => .crash
          | some r => .done addr r.board s.mem
        else loadLoop cfg flash board offset fuel rest s

/-- `load_serial`; every record takes at least one character. -/
def loadSerial (cfg : SetEnv.Config) (flash : Flash) (board : SetEnv.Board) (mem : Mem)
    (offset : UInt32) (stream : Text) : Outcome :=
  loadLoop cfg flash board offset (stream.length + 1) stream ⟨mem, ~~~ 0, 0⟩

/-!
## One record, written and read

A data record reads back as its address and bytes, and `save_serial` writes one for every
sixteen bytes and one for what is left.
-/

lemma hexChar_spec {n : Nat} (h : n < 16) : hex1Bin (hexChar n) = some n ∧ 48 ≤ hexChar n := by
  have hall : ∀ k : Fin 16, hex1Bin (hexChar k) = some k.val ∧ 48 ≤ hexChar k := by decide
  exact hall ⟨n, h⟩

lemma hexField_printable (k n : Nat) : ∀ c ∈ hexField k n, 48 ≤ c := by
  induction k generalizing n with
  | zero => simp [hexField]
  | succ k ih =>
    intro c hc
    rcases List.mem_append.mp hc with hmem | hmem
    · exact ih (n / 16) c hmem
    · rw [List.mem_singleton.mp hmem]
      exact (hexChar_spec (Nat.mod_lt n (by omega))).2

lemma hexField_length (k n : Nat) : (hexField k n).length = k := by
  induction k generalizing n with
  | zero => rfl
  | succ k ih => simp [hexField, ih]

lemma hex2Bin_field (v : Nat) (rest : Text) :
    hex2Bin (hexField 2 v ++ rest) = some (v % 256, rest) := by
  have hhigh := (hexChar_spec (Nat.mod_lt (v / 16) (show 0 < 16 by omega))).1
  have hlow := (hexChar_spec (Nat.mod_lt v (show 0 < 16 by omega))).1
  change hex2Bin (hexChar (v / 16 % 16) :: hexChar (v % 16) :: rest) = _
  simp only [hex2Bin, hhigh, hlow]
  congr 2
  omega

def hexBytes (bs : List UInt8) : Text := bs.flatMap (fun b => hexField 2 b.toNat)

lemma readBytes_hexBytes (bs : List UInt8) (rest : Text) :
    readBytes bs.length (hexBytes bs ++ rest) = some (bs, rest) := by
  induction bs with
  | nil => rfl
  | cons b bs ih =>
    have htext : hexBytes (b :: bs) ++ rest = hexField 2 b.toNat ++ (hexBytes bs ++ rest) := by
      simp [hexBytes]
    have hbyte : b.toNat % 256 = b.toNat := Nat.mod_eq_of_lt b.toNat_lt
    rw [List.length_cons, htext, readBytes, hex2Bin_field]
    simp only [ih, hbyte, UInt8.ofNat_toNat]

lemma hexBytes_length (bs : List UInt8) : (hexBytes bs).length = 2 * bs.length := by
  induction bs with
  | nil => rfl
  | cons b bs ih =>
    simp only [hexBytes, List.flatMap_cons, List.length_append, hexField_length,
      List.length_cons] at ih ⊢
    omega

lemma hexBytes_printable (bs : List UInt8) : ∀ c ∈ hexBytes bs, 48 ≤ c := by
  intro c hc
  obtain ⟨b, -, hmem⟩ := List.mem_flatMap.mp hc
  exact hexField_printable 2 b.toNat c hmem

def addressBytes (a : UInt32) : List UInt8 :=
  [UInt8.ofNat (a.toNat / 16777216), UInt8.ofNat (a.toNat / 65536), UInt8.ofNat (a.toNat / 256),
    UInt8.ofNat a.toNat]

lemma hexField_two_mod (n : Nat) : hexField 2 (n % 256) = hexField 2 n := by
  simp only [hexField, List.nil_append]
  have hhigh : n % 256 / 16 % 16 = n / 16 % 16 := by omega
  have hlow : n % 256 % 16 = n % 16 := by omega
  rw [hhigh, hlow]

lemma hexField_address (a : UInt32) : hexField 8 a.toNat = hexBytes (addressBytes a) := by
  simp only [hexBytes, addressBytes, List.flatMap_cons, List.flatMap_nil, List.append_nil,
    UInt8.toNat_ofNat', Nat.reducePow, hexField_two_mod]
  simp only [hexField, List.nil_append, List.cons_append, Nat.div_div_eq_div_mul]

lemma addrValue_address (a : UInt32) : addrValue (addressBytes a) = a := by
  have hlt := a.toNat_lt
  rw [← UInt32.toNat_inj]
  simp only [addrValue, addressBytes, List.foldl_cons, List.foldl_nil, UInt32.toNat_add,
    UInt32.toNat_shiftLeft, UInt8.toNat_toUInt32, UInt8.toNat_ofNat', Nat.shiftLeft_eq,
    UInt32.toNat_ofNat, Nat.reducePow, Nat.reduceMod]
  omega

lemma foldl_sum (init : UInt8) (bs : List UInt8) :
    bs.foldl (· + ·) init = init + UInt8.ofNat (bs.map UInt8.toNat).sum := by
  induction bs generalizing init with
  | nil => simp
  | cons b bs ih =>
    rw [List.foldl_cons, ih, List.map_cons, List.sum_cons, UInt8.ofNat_add, UInt8.ofNat_toNat,
      UInt8.add_assoc]

lemma complement_byte (n : Nat) : UInt8.ofNat (255 - n % 256) = ~~~ UInt8.ofNat n := by
  rw [← UInt8.toNat_inj, UInt8.toNat_not, UInt8.toNat_ofNat', UInt8.toNat_ofNat']
  change (255 - n % 256) % 256 = 255 - n % 256
  omega

lemma addressSum_bytes (a : UInt32) :
    addressSum a = ((addressBytes a).map UInt8.toNat).sum := by
  simp only [addressSum, addressBytes, List.map_cons, List.map_nil, List.sum_cons, List.sum_nil,
    UInt8.toNat_ofNat', Nat.reducePow]
  omega

def recordBody (a : UInt32) (bs : List UInt8) : Text :=
  let checksum := (bs.map UInt8.toNat).sum + (bs.length + 5) + addressSum a
  83 :: 51 :: (hexField 2 (bs.length + 5) ++ (hexField 8 a.toNat ++
    (hexBytes bs ++ hexField 2 (255 - checksum % 256))))

lemma recordBody_length (a : UInt32) (bs : List UInt8) :
    (recordBody a bs).length = 2 * bs.length + 14 := by
  simp only [recordBody, List.length_cons, List.length_append, hexField_length, hexBytes_length]
  omega

lemma recordBody_printable (a : UInt32) (bs : List UInt8) : ∀ c ∈ recordBody a bs, 48 ≤ c := by
  intro c hc
  simp only [recordBody, List.mem_cons, List.mem_append] at hc
  rcases hc with rfl | rfl | h | h | h | h
  · decide
  · decide
  · exact hexField_printable _ _ c h
  · exact hexField_printable _ _ c h
  · exact hexBytes_printable bs c h
  · exact hexField_printable _ _ c h

lemma srecDecode_body (a : UInt32) {bs : List UInt8} (short : bs.length ≤ 250) :
    srecDecode (recordBody a bs) = .record 51 bs.length a bs := by
  have hlength := hex2Bin_field (bs.length + 5)
  rw [Nat.mod_eq_of_lt (by omega)] at hlength
  have haddr := readBytes_hexBytes (addressBytes a)
  have hdata := readBytes_hexBytes bs
  have hfour : (addressBytes a).length = 4 := rfl
  have hcount : ((bs.length + 5 : Nat) : Int) - ((4 : Nat) + 1) = bs.length := by omega
  have hsum : (addressBytes a ++ bs).foldl (· + ·) (UInt8.ofNat (bs.length + 5)) =
      UInt8.ofNat ((bs.map UInt8.toNat).sum + (bs.length + 5) + addressSum a) := by
    rw [foldl_sum, List.map_append, List.sum_append, ← addressSum_bytes, ← UInt8.ofNat_add]
    congr 1
    omega
  have hskip : ∀ t, skipToS (83 :: t) = t := fun t => rfl
  have htype : addrBytes 51 = some 4 := by decide
  have hnot : ¬ (51 : UInt8) = 53 := by decide
  rw [hfour] at haddr
  rw [recordBody, hexField_address, srecDecode, hskip]
  generalize (bs.map UInt8.toNat).sum + (bs.length + 5) + addressSum a = total at hsum ⊢
  have hcheck : hex2Bin (hexField 2 (255 - total % 256)) = some (255 - total % 256, []) := by
    have h := hex2Bin_field (255 - total % 256) []
    rw [List.append_nil, Nat.mod_eq_of_lt (show 255 - total % 256 < 256 by omega)] at h
    exact h
  simp only [hlength, htype, haddr, hcount, if_neg hnot, Int.toNat_natCast, hdata, hcheck, hsum,
    complement_byte, addrValue_address, if_true]

lemma readRecord_line (len : Nat) {t : Text} (printable : ∀ c ∈ t, 48 ≤ c)
    (short : t.length < len) (buf rest : Text) :
    readRecord len buf (t ++ 10 :: rest) = .line (buf ++ t) rest := by
  induction t generalizing len buf with
  | nil =>
    obtain ⟨len, rfl⟩ := Nat.exists_eq_add_of_lt short
    rw [List.append_nil]
    rfl
  | cons c t ih =>
    obtain ⟨len, rfl⟩ := Nat.exists_eq_add_of_lt short
    have hc := printable c List.mem_cons_self
    have hnot : ¬ (c = 13 ∨ c = 10) ∧ ¬ (c = 0 ∨ c = 3) := by
      constructor
      · rintro (rfl | rfl)
        · exact absurd hc (by decide)
        · exact absurd hc (by decide)
      · rintro (rfl | rfl)
        · exact absurd hc (by decide)
        · exact absurd hc (by decide)
    have hnext := ih ((c :: t).length + len)
      (fun d hd => printable d (List.mem_cons_of_mem _ hd)) (by simp; omega) (buf ++ [c])
    rw [List.cons_append, readRecord, if_neg hnot.1, if_neg hnot.2, hnext]
    simp

def bytesAt (m : Mem) (a : UInt32) (n : Nat) : List UInt8 :=
  (List.range n).map (fun i => m (a + UInt32.ofNat i))

@[simp] theorem bytesAt_length (m : Mem) (a : UInt32) (n : Nat) : (bytesAt m a n).length = n := by
  simp [bytesAt]

lemma bytesAt_succ (m : Mem) (a : UInt32) (n : Nat) :
    bytesAt m a (n + 1) = bytesAt m a n ++ [m (a + UInt32.ofNat n)] := by
  simp [bytesAt, List.range_succ]

lemma dumpRecord_body (a : UInt32) (bs : List UInt8) (short : bs.length ≤ 250) :
    dumpRecord a bs.length (bs.map UInt8.toNat).sum (hexBytes bs) = recordBody a bs ++ [10] := by
  have hlen : 4 + bs.length + 1 = bs.length + 5 := by omega
  have hsum : (bs.length + 5) % 256 + (bs.length + 5) / 256 % 256 = bs.length + 5 := by omega
  simp only [dumpRecord, srec3Format, recordBody, hlen, hsum, List.append_assoc, List.cons_append,
    List.nil_append]

lemma saveLoop_dump (m : Mem) (a : UInt32) (r checksum count : Nat) (data : Text)
    (full : r + 1 = srecBytesPerRecord ∨ count = 0) :
    saveLoop m (count + 1) a r checksum data =
      dumpRecord a (r + 1) (checksum + (m (a + UInt32.ofNat r)).toNat)
          (data ++ hexField 2 (m (a + UInt32.ofNat r)).toNat) ++
        saveLoop m count (a + UInt32.ofNat (r + 1)) 0 0 [] := if_pos full

lemma saveLoop_collect (m : Mem) (a : UInt32) {r : Nat} (hr : r < 16) (count : Nat) :
    saveLoop m (count + 1) a r ((bytesAt m a r).map UInt8.toNat).sum (hexBytes (bytesAt m a r)) =
      recordBody a (bytesAt m a (min 16 (r + count + 1))) ++ 10 ::
        saveLoop m (r + count + 1 - min 16 (r + count + 1))
          (a + UInt32.ofNat (min 16 (r + count + 1))) 0 0 [] := by
  have hsum : ∀ r, ((bytesAt m a r).map UInt8.toNat).sum + (m (a + UInt32.ofNat r)).toNat =
      ((bytesAt m a (r + 1)).map UInt8.toNat).sum := by
    intro r
    rw [bytesAt_succ]
    simp
  have hhex : ∀ r, hexBytes (bytesAt m a r) ++ hexField 2 (m (a + UInt32.ofNat r)).toNat =
      hexBytes (bytesAt m a (r + 1)) := by
    intro r
    rw [bytesAt_succ]
    simp [hexBytes]
  have hbody : ∀ r, r < 16 → dumpRecord a (r + 1) ((bytesAt m a (r + 1)).map UInt8.toNat).sum
      (hexBytes (bytesAt m a (r + 1))) = recordBody a (bytesAt m a (r + 1)) ++ [10] := by
    intro r hr
    have h := dumpRecord_body a (bytesAt m a (r + 1)) (by simp; omega)
    rw [bytesAt_length] at h
    exact h
  induction count generalizing r with
  | zero =>
    have hmin : min 16 (r + 0 + 1) = r + 1 := by omega
    have hsub : r + 0 + 1 - (r + 1) = 0 := by omega
    rw [hmin, hsub, saveLoop_dump m a r _ 0 _ (.inr rfl), hsum, hhex, hbody r hr,
      List.append_assoc]
    rfl
  | succ count ih =>
    by_cases hfull : r + 1 = srecBytesPerRecord
    · have h16 : r + 1 = 16 := hfull
      have hmin : min 16 (r + (count + 1) + 1) = r + 1 := by omega
      have hsub : r + (count + 1) + 1 - (r + 1) = count + 1 := by omega
      rw [hmin, hsub, saveLoop_dump m a r _ (count + 1) _ (.inl hfull), hsum, hhex, hbody r hr,
        List.append_assoc]
      rfl
    · have h16 : r + 1 ≠ 16 := hfull
      have hmore : ¬ (r + 1 = srecBytesPerRecord ∨ count + 1 = 0) := by
        rintro (h | h)
        · exact hfull h
        · omega
      have hshift : r + 1 + count + 1 = r + (count + 1) + 1 := by omega
      rw [saveLoop, if_neg hmore, hsum, hhex, ih (by omega), hshift]

lemma saveLoop_record (m : Mem) (a : UInt32) {n : Nat} (pos : 0 < n) :
    saveLoop m n a 0 0 [] = recordBody a (bytesAt m a (min 16 n)) ++ 10 ::
      saveLoop m (n - min 16 n) (a + UInt32.ofNat (min 16 n)) 0 0 [] := by
  obtain ⟨count, rfl⟩ := Nat.exists_eq_add_of_le' pos
  have h := saveLoop_collect m a (r := 0) (by omega) count
  rw [zero_add] at h
  exact h

end SRecord
