import UBoot.Serial.SRecord

/-!
# Lengths of records (common/s_record.c, common/cmd_load.c)

Which records `srec_decode` takes, with which number of bytes, and which lengths `load_serial`
copies.
-/

namespace SRecord

def srecMaxbinlen : Nat := 255

def storedBytes : Nat → Text → List UInt8
  | 0, _ => []
  | n + 1, input => match hex2Bin input with
    | none => []
    | some (v, input) => UInt8.ofNat v :: storedBytes n input

/-- What `srec_decode` stores in `data`, whatever it returns. -/
def srecStored (input : Text) : List UInt8 :=
  match skipToS input with
  | [] => []
  | type :: input => match hex2Bin input with
    | none => []
    | some (length, input) => match addrBytes type with
      | none => []
      | some k => match readBytes k input with
        | none => []
        | some (_, input) =>
          let count : Int := if type = 53 then 0 else length - (k + 1)
          storedBytes count.toNat input

inductive Hex : List UInt8 → Text → Text → Prop
  | nil (rest : Text) : Hex [] rest rest
  | cons {c d : UInt8} {i j : Nat} {bs : List UInt8} {text rest : Text}
      (high : hex1Bin c = some i) (low : hex1Bin d = some j) (more : Hex bs text rest) :
      Hex (UInt8.ofNat (i * 16 + j) :: bs) (c :: d :: text) rest

def DataOrEnd (type : UInt8) : Prop :=
  type = 49 ∨ type = 50 ∨ type = 51 ∨ type = 55 ∨ type = 56 ∨ type = 57

instance (type : UInt8) : Decidable (DataOrEnd type) := by
  unfold DataOrEnd
  infer_instance

/-- Behind the first 'S' of a line are a type, a length, an address, data and a checksum that is
right. -/
structure Stands (line : Text) (type length : UInt8) (addr data : List UInt8) : Prop where
  body : ∃ before text rest : Text, ∃ chksum : UInt8, line = before ++ 83 :: type :: text ∧
    83 ∉ before ∧ Hex (length :: (addr ++ data ++ [chksum])) text rest ∧
    chksum = ~~~ (addr ++ data).foldl (· + ·) length
  field : addrBytes type = some addr.length

/-- A record whose length covers its address, its data and its checksum. -/
structure Whole (line : Text) (type : UInt8) (addr data : List UInt8) : Prop where
  stands : Stands line type (UInt8.ofNat (addr.length + data.length + 1)) addr data
  fits : addr.length + data.length + 1 ≤ 255

/-- A data or end record whose length covers less than its address and its checksum, where the
checksum is right. -/
def Short (line : Text) : Prop :=
  ∃ type length addr, DataOrEnd type ∧ Stands line type length addr [] ∧
    length.toNat < addr.length + 1

/-- A data or end record is only taken from a record that is whole, with the number of its bytes. -/
def TakesWhole (line : Text) : Prop :=
  ∀ type count addr data, srecDecode line = .record type count addr data → DataOrEnd type →
    0 ≤ count ∧ count = data.length ∧ ∃ field, Whole line type field data ∧ addr = addrValue field

variable {text rest : Text}

lemma hex1Bin_lt {c : UInt8} {i : Nat} (digit : hex1Bin c = some i) : i < 16 := by
  rw [hex1Bin] at digit
  split_ifs at digit with decimal small big
  · have last : c.toNat ≤ 57 := UInt8.le_iff_toNat_le.mp decimal.2
    cases digit
    omega
  · have last : c.toNat ≤ 102 := UInt8.le_iff_toNat_le.mp small.2
    cases digit
    omega
  · have last : c.toNat ≤ 70 := UInt8.le_iff_toNat_le.mp big.2
    cases digit
    omega

lemma hex2Bin_cons {c d : UInt8} {i j : Nat} (high : hex1Bin c = some i) (low : hex1Bin d = some j)
    (text : Text) : hex2Bin (c :: d :: text) = some (i * 16 + j, text) := by
  rw [hex2Bin, high, low]

lemma hex2Bin_some {v : Nat} (read : hex2Bin text = some (v, rest)) :
    v < 256 ∧ ∃ c d i j, text = c :: d :: rest ∧ hex1Bin c = some i ∧ hex1Bin d = some j ∧
      v = i * 16 + j := by
  cases text with
  | nil => cases read
  | cons c text =>
    cases text with
    | nil => cases read
    | cons d text =>
      cases high : hex1Bin c with
      | none =>
        rw [hex2Bin, high] at read
        cases read
      | some i =>
        cases low : hex1Bin d with
        | none =>
          rw [hex2Bin, high, low] at read
          cases read
        | some j =>
          rw [hex2Bin_cons high low] at read
          cases read
          have first := hex1Bin_lt high
          have second := hex1Bin_lt low
          exact ⟨by omega, c, d, i, j, rfl, high, low, rfl⟩

lemma readBytes_iff (n : Nat) (text : Text) (bs : List UInt8) (rest : Text) :
    readBytes n text = some (bs, rest) ↔ bs.length = n ∧ Hex bs text rest := by
  induction n generalizing text bs with
  | zero =>
    constructor
    · intro read
      cases read
      exact ⟨rfl, .nil rest⟩
    · rintro ⟨none, hex⟩
      cases hex with
      | nil => rfl
      | cons _ _ _ => cases none
  | succ n ih =>
    constructor
    · intro read
      cases first : hex2Bin text with
      | none =>
        rw [readBytes, first] at read
        cases read
      | some pair =>
        obtain ⟨v, text'⟩ := pair
        cases more : readBytes n text' with
        | none =>
          rw [readBytes, first] at read
          dsimp only at read
          rw [more] at read
          cases read
        | some pair' =>
          obtain ⟨bs', rest'⟩ := pair'
          rw [readBytes, first] at read
          dsimp only at read
          rw [more] at read
          cases read
          obtain ⟨-, c, d, i, j, rfl, high, low, rfl⟩ := hex2Bin_some first
          obtain ⟨count, hex⟩ := (ih text' bs').mp more
          exact ⟨congrArg Nat.succ count, .cons high low hex⟩
    · rintro ⟨count, hex⟩
      cases hex with
      | nil => cases count
      | @cons c d i j bs' text' _ high low more =>
        have later := (ih text' bs').mpr ⟨Nat.succ.inj count, more⟩
        rw [readBytes, hex2Bin_cons high low]
        dsimp only
        rw [later]

lemma hex2Bin_iff {b : UInt8} :
    hex2Bin text = some (b.toNat, rest) ↔ Hex [b] text rest := by
  constructor
  · intro read
    obtain ⟨-, c, d, i, j, rfl, high, low, value⟩ := hex2Bin_some read
    have byte : b = UInt8.ofNat (i * 16 + j) := by rw [← value, UInt8.ofNat_toNat]
    rw [byte]
    exact .cons high low (.nil rest)
  · intro hex
    cases hex with
    | @cons c d i j _ _ _ high low more =>
      cases more
      have first := hex1Bin_lt high
      have second := hex1Bin_lt low
      rw [hex2Bin_cons high low, UInt8.toNat_ofNat', Nat.mod_eq_of_lt (by omega)]

lemma hex2Bin_hex {v : Nat} (read : hex2Bin text = some (v, rest)) :
    Hex [UInt8.ofNat v] text rest := by
  obtain ⟨-, c, d, i, j, rfl, high, low, rfl⟩ := hex2Bin_some read
  exact .cons high low (.nil rest)

lemma hex_append {xs ys : List UInt8} {text rest : Text} :
    Hex (xs ++ ys) text rest ↔ ∃ middle, Hex xs text middle ∧ Hex ys middle rest := by
  induction xs generalizing text with
  | nil =>
    constructor
    · exact fun hex => ⟨text, .nil text, hex⟩
    · rintro ⟨middle, hex, hex'⟩
      cases hex
      exact hex'
  | cons x xs ih =>
    constructor
    · intro hex
      cases hex with
      | cons high low more =>
        obtain ⟨middle, hex, hex'⟩ := ih.mp more
        exact ⟨middle, .cons high low hex, hex'⟩
    · rintro ⟨middle, hex, hex'⟩
      cases hex with
      | cons high low more => exact .cons high low (ih.mpr ⟨middle, more, hex'⟩)

lemma skipToS_append {before : Text} (none : 83 ∉ before) (text : Text) :
    skipToS (before ++ 83 :: text) = text := by
  induction before with
  | nil => rfl
  | cons c before ih =>
    have other : c ≠ 83 := fun same => none (same ▸ List.mem_cons_self)
    have later : 83 ∉ before := fun member => none (List.mem_cons_of_mem c member)
    rw [List.cons_append, skipToS, if_neg other, ih later]

lemma skipToS_cons {line : Text} {c : UInt8} (skipped : skipToS line = c :: text) :
    ∃ before, line = before ++ 83 :: c :: text ∧ 83 ∉ before := by
  induction line with
  | nil => cases skipped
  | cons d line ih =>
    rw [skipToS] at skipped
    split_ifs at skipped with here
    · exact ⟨[], by rw [here, skipped]; rfl, List.not_mem_nil⟩
    obtain ⟨before, same, none⟩ := ih skipped
    refine ⟨d :: before, by rw [same]; rfl, fun member => ?_⟩
    rcases List.mem_cons.mp member with first | later
    · exact here first.symm
    · exact none later

variable {count : Int} {a : UInt32}

section
variable {line : Text} {type length : UInt8} {addr data : List UInt8} {k : Nat}

def countOf (type : UInt8) (length k : Nat) : Int :=
  if type = 53 then 0 else (length : Int) - ((k : Int) + 1)

lemma stands_read (stands : Stands line type length addr data) :
    ∃ text text' text'' last rest chksum, skipToS line = type :: text ∧
      hex2Bin text = some (length.toNat, text') ∧
      readBytes addr.length text' = some (addr, text'') ∧
      readBytes data.length text'' = some (data, last) ∧
      hex2Bin last = some (UInt8.toNat chksum, rest) ∧
      chksum = ~~~ (addr ++ data).foldl (· + ·) length := by
  obtain ⟨before, text, rest, chksum, same, none, hex, sum⟩ := stands.body
  obtain ⟨text', first, hex⟩ := (@hex_append [length] _ _ _).mp hex
  obtain ⟨last, hex, final⟩ := hex_append.mp hex
  obtain ⟨text'', field, bytes⟩ := hex_append.mp hex
  refine ⟨text, text', text'', last, rest, chksum, ?_, hex2Bin_iff.mpr first, ?_, ?_,
    hex2Bin_iff.mpr final, sum⟩
  · rw [same, skipToS_append none]
  · exact (readBytes_iff addr.length text' addr text'').mpr ⟨rfl, field⟩
  · exact (readBytes_iff data.length text'' data last).mpr ⟨rfl, bytes⟩

lemma stands_decoded (stands : Stands line type length addr data)
    (count : data.length = (countOf type length.toNat addr.length).toNat) :
    srecDecode line =
      .record type (countOf type length.toNat addr.length) (addrValue addr) data := by
  obtain ⟨text, text', text'', last, rest, chksum, skipped, first, field, bytes, final, sum⟩ :=
    stands_read stands
  rw [count] at bytes
  rw [countOf] at bytes ⊢
  rw [srecDecode, skipped]
  dsimp only
  rw [first]
  rw [stands.field]
  dsimp only
  rw [field]
  dsimp only
  rw [bytes]
  dsimp only
  rw [final]
  dsimp only
  rw [UInt8.ofNat_toNat, UInt8.ofNat_toNat, if_pos sum]

lemma decoded_read (decoded : srecDecode line = .record type count a data) :
    ∃ text text' text'' last rest length k v addr, skipToS line = type :: text ∧
      hex2Bin text = some (length, text') ∧ addrBytes type = some k ∧
      readBytes k text' = some (addr, text'') ∧
      readBytes (countOf type length k).toNat text'' = some (data, last) ∧
      hex2Bin last = some (v, rest) ∧
      UInt8.ofNat v = ~~~ (addr ++ data).foldl (· + ·) (UInt8.ofNat length) ∧
      a = addrValue addr ∧ count = countOf type length k := by
  unfold srecDecode at decoded
  cases skipped : skipToS line with
  | nil =>
    rw [skipped] at decoded
    cases decoded
  | cons type' text =>
    rw [skipped] at decoded
    dsimp only at decoded
    cases first : hex2Bin text with
    | none =>
      rw [first] at decoded
      cases decoded
    | some pair =>
      obtain ⟨length, text'⟩ := pair
      rw [first] at decoded
      cases kind : addrBytes type' with
      | none =>
        rw [kind] at decoded
        cases decoded
      | some k =>
        rw [kind] at decoded
        dsimp only at decoded
        cases field : readBytes k text' with
        | none =>
          rw [field] at decoded
          cases decoded
        | some pair =>
          obtain ⟨addr, text''⟩ := pair
          rw [field] at decoded
          dsimp only at decoded
          rw [← countOf] at decoded
          cases bytes : readBytes (countOf type' length k).toNat text'' with
          | none =>
            rw [bytes] at decoded
            cases decoded
          | some pair =>
            obtain ⟨data', last⟩ := pair
            rw [bytes] at decoded
            dsimp only at decoded
            cases final : hex2Bin last with
            | none =>
              rw [final] at decoded
              cases decoded
            | some pair =>
              obtain ⟨v, rest⟩ := pair
              rw [final] at decoded
              dsimp only at decoded
              split_ifs at decoded with sum
              cases decoded
              exact ⟨text, text', text'', last, rest, length, k, v, addr, rfl, first, kind, field,
                bytes, final, sum, rfl, rfl⟩

lemma decoded_stands (decoded : srecDecode line = .record type count a data) :
    ∃ length addr, Stands line type length addr data ∧ a = addrValue addr ∧
      count = countOf type length.toNat addr.length ∧ data.length = count.toNat := by
  obtain ⟨text, text', text'', last, rest, length, k, v, addr, skipped, first, kind, field, bytes,
    final, sum, rfl, rfl⟩ := decoded_read decoded
  obtain ⟨small, -⟩ := hex2Bin_some first
  have value : (UInt8.ofNat length).toNat = length := UInt8.toNat_ofNat_of_lt' small
  obtain ⟨width, field⟩ := (readBytes_iff k text' addr text'').mp field
  obtain ⟨size, bytes⟩ := (readBytes_iff _ text'' data last).mp bytes
  obtain ⟨before, same, none⟩ := skipToS_cons skipped
  have hex := hex_append.mpr ⟨last, hex_append.mpr ⟨text'', field, bytes⟩, hex2Bin_hex final⟩
  refine ⟨UInt8.ofNat length, addr, ⟨⟨before, text, rest, UInt8.ofNat v, same, none,
    hex_append.mpr ⟨text', hex2Bin_hex first, hex⟩, sum⟩, ?_⟩, rfl, ?_, size⟩
  · rw [width]
    exact kind
  · rw [value, width]

lemma not_count {type : UInt8} (kind : DataOrEnd type) : type ≠ 53 := by
  rintro rfl
  exact absurd kind (by decide)

lemma short_decoded (short : Short line) : ∃ type count a, DataOrEnd type ∧ count < 0 ∧
    srecDecode line = .record type count a [] := by
  obtain ⟨type, length, addr, kind, stands, less⟩ := short
  have negative : countOf type length.toNat addr.length < 0 := by
    rw [countOf, if_neg (not_count kind)]
    omega
  have none : ([] : List UInt8).length = (countOf type length.toNat addr.length).toNat :=
    (Int.toNat_of_nonpos (Int.le_of_lt negative)).symm
  exact ⟨type, _, _, kind, negative, stands_decoded stands none⟩

lemma short_taken (short : Short line) : ¬ TakesWhole line := by
  obtain ⟨type, count, a, kind, negative, decoded⟩ := short_decoded short
  intro takes
  obtain ⟨positive, -⟩ := takes _ _ _ _ decoded kind
  exact absurd negative (Int.not_lt.mpr positive)

lemma takes_of_long (long : ¬ Short line) : TakesWhole line := by
  intro type count a data decoded kind
  obtain ⟨length, addr, stands, value, same, size⟩ := decoded_stands decoded
  have bound := length.toNat_lt
  have enough : addr.length + 1 ≤ length.toNat := by
    refine Nat.le_of_not_lt fun less => long ⟨type, length, addr, kind, ?_, less⟩
    have none : data = [] := by
      rw [← List.length_eq_zero_iff, size, same, countOf, if_neg (not_count kind)]
      omega
    exact none ▸ stands
  rw [countOf, if_neg (not_count kind)] at same
  have covers : addr.length + data.length + 1 = length.toNat := by omega
  refine ⟨by omega, by omega, addr, ⟨?_, by omega⟩, value⟩
  rw [covers, UInt8.ofNat_toNat]
  exact stands

lemma takesWhole_iff (line : Text) : TakesWhole line ↔ ¬ Short line :=
  ⟨fun takes short => short_taken short takes, takes_of_long⟩

lemma storedBytes_length_le (n : Nat) (text : Text) : (storedBytes n text).length ≤ n := by
  induction n generalizing text with
  | zero => exact Nat.le_refl 0
  | succ n ih =>
    rw [storedBytes]
    cases hex2Bin text with
    | none => exact Nat.zero_le _
    | some pair => exact Nat.succ_le_succ (ih pair.2)

lemma storedBytes_eq (n : Nat) {bs : List UInt8} (read : readBytes n text = some (bs, rest)) :
    storedBytes n text = bs := by
  obtain ⟨count, hex⟩ := (readBytes_iff n text bs rest).mp read
  clear read
  induction hex generalizing n with
  | nil =>
    rw [← count]
    rfl
  | cons high low _ ih =>
    rw [← count, List.length_cons, storedBytes, hex2Bin_cons high low]
    dsimp only
    rw [ih _ rfl]

lemma decoded_stored (decoded : srecDecode line = .record type count a data) :
    srecStored line = data := by
  obtain ⟨length, addr, stands, -, same, size⟩ := decoded_stands decoded
  obtain ⟨text, text', text'', last, rest, chksum, skipped, first, field, bytes, -⟩ :=
    stands_read stands
  rw [size, same, countOf] at bytes
  rw [srecStored, skipped]
  dsimp only
  rw [first]
  rw [stands.field]
  dsimp only
  rw [field]
  exact storedBytes_eq _ bytes

lemma addrBytes_ge {type : UInt8} {k : Nat} (kind : addrBytes type = some k) : 2 ≤ k := by
  rw [addrBytes] at kind
  split_ifs at kind
  · cases kind
    decide
  · cases kind
    decide
  · cases kind
    decide

lemma countOf_le {type : UInt8} {length k : Nat} (byte : length < 256) (field : 2 ≤ k) :
    (countOf type length k).toNat ≤ 252 := by
  rw [countOf]
  split_ifs
  · exact Nat.zero_le _
  · omega

lemma srecStored_length_le (line : Text) : (srecStored line).length ≤ srecMaxbinlen := by
  have size : srecMaxbinlen = 255 := rfl
  rw [srecStored]
  cases skipToS line with
  | nil => exact Nat.zero_le _
  | cons type text =>
    dsimp only
    cases first : hex2Bin text with
    | none => exact Nat.zero_le _
    | some pair =>
      obtain ⟨length, text'⟩ := pair
      obtain ⟨byte, -⟩ := hex2Bin_some first
      cases kind : addrBytes type with
      | none => exact Nat.zero_le _
      | some k =>
        dsimp only
        cases readBytes k text' with
        | none => exact Nat.zero_le _
        | some pair =>
          have most : (countOf type length k).toNat ≤ 252 := countOf_le byte (addrBytes_ge kind)
          have stored := storedBytes_length_le (countOf type length k).toNat pair.2
          change (storedBytes (countOf type length k).toNat pair.2).length ≤ _
          omega

end

/-- A call of `memcpy` or `flash_write` for a record. -/
structure Copy where
  record : Text
  storeAddr : UInt32
  binlen : Int
  binbuf : List UInt8

/-- The copies of `load_serial`, up to the first of a negative length. -/
def loadCopies (flash : Flash) (offset : UInt32) : Nat → Text → Mem → List Copy
  | 0, _, _ => []
  | fuel + 1, stream, mem =>
    match readRecord srecMaxreclen [] stream with
    | .waits => []
    | .aborted => []
    | .line record rest => match srecDecode record with
      | .empty => loadCopies flash offset fuel rest mem
      | .badType => []
      | .noSrec => []
      | .badChecksum => []
      | .record type count addr data =>
        if type = 49 ∨ type = 50 ∨ type = 51 then
          let storeAddr := addr + offset
          ⟨record, storeAddr, count, data⟩ ::
            (if count < 0 then []
            else if flash.addr2info storeAddr then
              if (flash.flashWrite data storeAddr mem).1 ≠ 0 then []
              else loadCopies flash offset fuel rest (flash.flashWrite data storeAddr mem).2
            else loadCopies flash offset fuel rest (memcpy mem storeAddr data))
        else if type = 55 ∨ type = 56 ∨ type = 57 then []
        else loadCopies flash offset fuel rest mem

def loadSerialCopies (flash : Flash) (offset : UInt32) (mem : Mem) (stream : Text) : List Copy :=
  loadCopies flash offset (stream.length + 1) stream mem

def Copy.Sound (c : Copy) : Prop := 0 ≤ c.binlen ∧ c.binlen = c.binbuf.length

lemma dataOrEnd_of_data {type : UInt8} (kind : type = 49 ∨ type = 50 ∨ type = 51) :
    DataOrEnd type := by
  rcases kind with rfl | rfl | rfl
  · exact .inl rfl
  · exact .inr (.inl rfl)
  · exact .inr (.inr (.inl rfl))

lemma copy_decoded {flash : Flash} {offset : UInt32} {c : Copy} (fuel : Nat) {stream : Text}
    {mem : Mem} (member : c ∈ loadCopies flash offset fuel stream mem) :
    ∃ type addr, DataOrEnd type ∧ srecDecode c.record = .record type c.binlen addr c.binbuf := by
  induction fuel generalizing stream mem with
  | zero => cases member
  | succ fuel ih =>
    cases read : readRecord srecMaxreclen [] stream with
    | waits =>
      rw [loadCopies, read] at member
      cases member
    | aborted =>
      rw [loadCopies, read] at member
      cases member
    | line record rest =>
      rw [loadCopies, read] at member
      dsimp only at member
      cases decoded : srecDecode record with
      | empty =>
        rw [decoded] at member
        exact ih member
      | badType =>
        rw [decoded] at member
        cases member
      | noSrec =>
        rw [decoded] at member
        cases member
      | badChecksum =>
        rw [decoded] at member
        cases member
      | record type count addr data =>
        rw [decoded] at member
        dsimp only at member
        split_ifs at member with kind negative flashed failed ended
        · obtain rfl := List.mem_singleton.mp member
          exact ⟨type, addr, dataOrEnd_of_data kind, decoded⟩
        · obtain rfl := List.mem_singleton.mp member
          exact ⟨type, addr, dataOrEnd_of_data kind, decoded⟩
        · rcases List.mem_cons.mp member with rfl | later
          · exact ⟨type, addr, dataOrEnd_of_data kind, decoded⟩
          · exact ih later
        · rcases List.mem_cons.mp member with rfl | later
          · exact ⟨type, addr, dataOrEnd_of_data kind, decoded⟩
          · exact ih later
        · cases member
        · exact ih member

lemma short_negative {line : Text} (short : Short line) {type : UInt8} {data : List UInt8}
    (decoded : srecDecode line = .record type count a data) : count < 0 := by
  obtain ⟨type', count', a', -, negative, decoded'⟩ := short_decoded short
  rw [decoded'] at decoded
  cases decoded
  exact negative

lemma copy_sound_iff {flash : Flash} {offset : UInt32} {c : Copy} {fuel : Nat} {stream : Text}
    {mem : Mem} (member : c ∈ loadCopies flash offset fuel stream mem) :
    c.Sound ↔ ¬ Short c.record := by
  obtain ⟨type, addr, kind, decoded⟩ := copy_decoded fuel member
  constructor
  · intro sound short
    exact absurd (short_negative short decoded) (Int.not_lt.mpr sound.1)
  · intro long
    obtain ⟨positive, same, -⟩ := takes_of_long long _ _ _ _ decoded kind
    exact ⟨positive, same⟩

/-- `srec_decode` stores within its buffer, and takes data and end records with the number of their
bytes, and `load_serial` copies as many bytes as it has, if and only if there are no records whose
length covers less than their address and checksum. -/
theorem srec_lengths (line : Text) (flash : Flash) (offset : UInt32) (mem : Mem) (stream : Text) :
    (srecStored line).length ≤ srecMaxbinlen ∧
      (∀ type count a data, srecDecode line = .record type count a data →
        srecStored line = data) ∧
      (TakesWhole line ↔ ¬ Short line) ∧
      ((∀ c ∈ loadSerialCopies flash offset mem stream, c.Sound) ↔
        ∀ c ∈ loadSerialCopies flash offset mem stream, ¬ Short c.record) :=
  ⟨srecStored_length_le line, fun _ _ _ _ => decoded_stored, takesWhole_iff line,
    forall₂_congr fun _ member => copy_sound_iff member⟩

def emptyRecord : Text := [83, 49, 48, 48, 48, 48, 48, 48, 70, 70]

/-- It is taken with -3 bytes, and so many are copied. -/
theorem negative_length :
    srecDecode emptyRecord = .record 49 (-3) 0 [] ∧ ¬ TakesWhole emptyRecord ∧
      ∃ c ∈ loadSerialCopies ⟨fun _ => false, fun _ _ m => (0, m)⟩ 0x30000000 (fun _ => 0)
        (emptyRecord ++ [10]), c.binlen = -3 := by
  have decoded : srecDecode emptyRecord = .record 49 (-3) 0 [] := by decide
  refine ⟨decoded, fun takes => ?_, ⟨emptyRecord, 0x30000000, -3, []⟩, List.mem_cons_self, rfl⟩
  obtain ⟨positive, -⟩ := takes _ _ _ _ decoded (by decide)
  exact absurd positive (by decide)

end SRecord
