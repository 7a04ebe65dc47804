import Mathlib.Data.List.Basic

/-!
# Numbers in text (lib_generic/vsprintf.c)

Strings are lists of bytes without their terminating NUL. The parser returns the
value and the text it stopped at, which is what `endp` receives.
-/

namespace NumberText

def isDigit (c : UInt8) : Bool := 48 ≤ c && c ≤ 57
def isXDigit (c : UInt8) : Bool := isDigit c || (65 ≤ c && c ≤ 70) || (97 ≤ c && c ≤ 102)

/-- `isdigit(*cp) ? *cp-'0' : (islower(*cp) ? toupper(*cp) : *cp)-'A'+10`. -/
def digitValue (c : UInt8) : UInt32 :=
  if isDigit c then (c - 48).toUInt32
  else if 97 ≤ c then (c - 97).toUInt32 + 10
  else (c - 65).toUInt32 + 10

/-- The digit loop of `simple_strtoul`; the accumulator wraps as `unsigned long` does. -/
def digits (base : UInt32) : UInt32 → List UInt8 → UInt32 × List UInt8
  | result, [] => (result, [])
  | result, c :: cp =>
    if isXDigit c && digitValue c < base then digits base (result * base + digitValue c) cp
    else (result, c :: cp)

def simpleStrtoul (cp : List UInt8) (base : UInt32) : UInt32 × List UInt8 :=
  match cp with
  | 48 :: rest =>
    match rest with
    | 120 :: c :: more =>
      if isXDigit c then digits 16 0 (c :: more)
      else digits (if base = 0 then 8 else base) 0 rest
    | _ => digits (if base = 0 then 8 else base) 0 rest
  | _ => digits (if base = 0 then 10 else base) 0 cp

example : simpleStrtoul [49, 49, 53, 46, 50] 10 = (115, [46, 50]) := by decide

/-!
## The number that a text writes

`simple_strtoul` as if `unsigned long` had no width: the number that is written. The number that is
read is this one modulo 2^32.
-/

def digitsValue (base : UInt32) : Nat → List UInt8 → Nat
  | result, [] => result
  | result, c :: cp =>
    if isXDigit c && digitValue c < base then
      digitsValue base (result * base.toNat + (digitValue c).toNat) cp
    else result

def strtoulValue (cp : List UInt8) (base : UInt32) : Nat :=
  match cp with
  | 48 :: rest =>
    match rest with
    | 120 :: c :: more =>
      if isXDigit c then digitsValue 16 0 (c :: more)
      else digitsValue (if base = 0 then 8 else base) 0 rest
    | _ => digitsValue (if base = 0 then 8 else base) 0 rest
  | _ => digitsValue (if base = 0 then 10 else base) 0 cp

lemma digits_value (base : UInt32) (result : Nat) (cp : List UInt8) :
    (digits base (UInt32.ofNat result) cp).1 = UInt32.ofNat (digitsValue base result cp) := by
  induction cp generalizing result with
  | nil => rfl
  | cons c cp ih =>
    rw [digits, digitsValue]
    split_ifs
    · rw [← ih, UInt32.ofNat_add, UInt32.ofNat_mul, UInt32.ofNat_toNat, UInt32.ofNat_toNat]
    · rfl

lemma simpleStrtoul_value (cp : List UInt8) (base : UInt32) :
    (simpleStrtoul cp base).1 = UInt32.ofNat (strtoulValue cp base) := by
  fun_cases simpleStrtoul cp base with
  | case1 c more hex =>
    rw [strtoulValue, if_pos hex]
    exact digits_value 16 0 (c :: more)
  | case2 c more decimal =>
    rw [strtoulValue, if_neg decimal]
    exact digits_value _ 0 _
  | case3 rest plain =>
    rw [strtoulValue]
    · exact digits_value _ 0 rest
    · exact plain
  | case4 cp plain =>
    rw [strtoulValue]
    · exact digits_value _ 0 cp
    · exact plain

/-!
## Where a number ends

A number in front of a character that no number goes on with is read as if the text ended there.
-/

def Ends (c : UInt8) : Prop := isXDigit c = false ∧ c ≠ 120

def digitsStart (cp : List UInt8) (base : UInt32) : UInt32 × List UInt8 :=
  match cp with
  | 48 :: rest =>
    match rest with
    | 120 :: c :: more =>
      if isXDigit c then (16, c :: more) else (if base = 0 then 8 else base, rest)
    | _ => (if base = 0 then 8 else base, rest)
  | _ => (if base = 0 then 10 else base, cp)

lemma simpleStrtoul_start (cp : List UInt8) (base : UInt32) :
    simpleStrtoul cp base = digits (digitsStart cp base).1 0 (digitsStart cp base).2 := by
  fun_cases digitsStart cp base with
  | case1 c more hex => rw [simpleStrtoul, if_pos hex]
  | case2 c more decimal => rw [simpleStrtoul, if_neg decimal]
  | case3 rest plain =>
    rw [simpleStrtoul]
    exact plain
  | case4 cp plain =>
    rw [simpleStrtoul]
    exact plain

lemma strtoulValue_start (cp : List UInt8) (base : UInt32) :
    strtoulValue cp base = digitsValue (digitsStart cp base).1 0 (digitsStart cp base).2 := by
  fun_cases digitsStart cp base with
  | case1 c more hex => rw [strtoulValue, if_pos hex]
  | case2 c more decimal => rw [strtoulValue, if_neg decimal]
  | case3 rest plain =>
    rw [strtoulValue]
    exact plain
  | case4 cp plain =>
    rw [strtoulValue]
    exact plain

lemma digitsStart_suffix (cp : List UInt8) (base : UInt32) :
    ∃ before, cp = before ++ (digitsStart cp base).2 := by
  fun_cases digitsStart cp base with
  | case1 c more hex => exact ⟨[48, 120], rfl⟩
  | case2 c more decimal => exact ⟨[48], rfl⟩
  | case3 rest plain => exact ⟨[48], rfl⟩
  | case4 cp plain => exact ⟨[], rfl⟩

section
variable {c : UInt8} (ends : Ends c) (rest : List UInt8)
include ends

lemma digitsStart_seam (cp : List UInt8) (base : UInt32) :
    digitsStart (cp ++ c :: rest) base =
      ((digitsStart cp base).1, (digitsStart cp base).2 ++ c :: rest) := by
  have notHex : ¬ isXDigit c = true := by
    rw [ends.1]
    exact Bool.false_ne_true
  have notZero : c ≠ 48 := by
    rintro rfl
    exact absurd ends.1 (by decide)
  fun_cases digitsStart cp base with
  | case1 d more hex => simp [digitsStart, hex]
  | case2 d more decimal => simp [digitsStart, decimal]
  | case3 cp plain =>
    cases cp with
    | nil => simp [digitsStart, ends.2]
    | cons d more =>
      by_cases x : d = 120
      · subst x
        cases more with
        | nil => simp [digitsStart, notHex]
        | cons e more => exact absurd rfl (plain e more)
      · simp [digitsStart, x]
  | case4 cp plain =>
    cases cp with
    | nil => simp [digitsStart, notZero]
    | cons d more =>
      have nonzero : d ≠ 48 := by
        rintro rfl
        exact plain more rfl
      simp [digitsStart, nonzero]

lemma digits_seam (base result : UInt32) (cp : List UInt8) :
    digits base result (cp ++ c :: rest) =
      ((digits base result cp).1, (digits base result cp).2 ++ c :: rest) := by
  induction cp generalizing result with
  | nil => simp [digits, ends.1]
  | cons d cp ih =>
    rw [List.cons_append, digits, digits]
    split_ifs
    · exact ih _
    · rfl

lemma digitsValue_seam (base : UInt32) (result : Nat) (cp : List UInt8) :
    digitsValue base result (cp ++ c :: rest) = digitsValue base result cp := by
  induction cp generalizing result with
  | nil => simp [digitsValue, ends.1]
  | cons d cp ih =>
    rw [List.cons_append, digitsValue, digitsValue]
    split_ifs
    · exact ih _
    · rfl

lemma simpleStrtoul_seam (cp : List UInt8) (base : UInt32) :
    simpleStrtoul (cp ++ c :: rest) base =
      ((simpleStrtoul cp base).1, (simpleStrtoul cp base).2 ++ c :: rest) := by
  rw [simpleStrtoul_start, simpleStrtoul_start, digitsStart_seam ends rest]
  exact digits_seam ends rest _ _ _

lemma strtoulValue_seam (cp : List UInt8) (base : UInt32) :
    strtoulValue (cp ++ c :: rest) base = strtoulValue cp base := by
  rw [strtoulValue_start, strtoulValue_start, digitsStart_seam ends rest]
  exact digitsValue_seam ends rest _ _ _

end

lemma digits_suffix (base result : UInt32) (cp : List UInt8) :
    ∃ before, cp = before ++ (digits base result cp).2 := by
  induction cp generalizing result with
  | nil => exact ⟨[], rfl⟩
  | cons c cp ih =>
    rw [digits]
    split_ifs
    · obtain ⟨before, split⟩ := ih (result * base + digitValue c)
      exact ⟨c :: before, congrArg (c :: ·) split⟩
    · exact ⟨[], rfl⟩

lemma simpleStrtoul_suffix (cp : List UInt8) (base : UInt32) :
    ∃ before, cp = before ++ (simpleStrtoul cp base).2 := by
  obtain ⟨lead, started⟩ := digitsStart_suffix cp base
  obtain ⟨before, split⟩ := digits_suffix (digitsStart cp base).1 0 (digitsStart cp base).2
  refine ⟨lead ++ before, ?_⟩
  rw [simpleStrtoul_start, List.append_assoc, ← split]
  exact started

/-!
## Texts that are numbers as a whole

What `simple_strtoul` reads to the end in base ten: digits, and also a number with 0x in front. And
texts that are cut at a character.
-/

variable {c : UInt8} {s : List UInt8} {n : Nat}

structure DecimalNumber (s : List UInt8) (n : Nat) : Prop where
  some_digit : s ≠ []
  digits : ∀ c ∈ s, isDigit c
  value : s.foldl (fun n c => n * 10 + (c.toNat - 48)) 0 = n

def ReadWhole (s : List UInt8) : Prop := (simpleStrtoul s 10).2 ≠ s ∧ (simpleStrtoul s 10).2 = []

instance ReadWhole.decidable (s : List UInt8) : Decidable (ReadWhole s) :=
  inferInstanceAs (Decidable (_ ∧ _))

lemma isDigit_iff : isDigit c ↔ 48 ≤ c.toNat ∧ c.toNat ≤ 57 := by
  rw [isDigit, Bool.and_eq_true, decide_eq_true_iff, decide_eq_true_iff, UInt8.le_iff_toNat_le,
    UInt8.le_iff_toNat_le]
  rfl

lemma digitValue_digit (digit : isDigit c) : (digitValue c).toNat = c.toNat - 48 := by
  have lower : (48 : UInt8) ≤ c := UInt8.le_iff_toNat_le.mpr (isDigit_iff.mp digit).1
  rw [digitValue, if_pos digit, UInt8.toNat_toUInt32, UInt8.toNat_sub_of_le _ _ lower]
  rfl

lemma tenDigit_eq (c : UInt8) : (isXDigit c && digitValue c < 10) = isDigit c := by
  cases digit : isDigit c with
  | true =>
    have value := digitValue_digit digit
    have upper := (isDigit_iff.mp digit).2
    rw [isXDigit, digit, Bool.true_or, Bool.true_or, Bool.true_and]
    refine decide_eq_true (UInt32.lt_iff_toNat_lt.mpr ?_)
    rw [value]
    change c.toNat - 48 < 10
    omega
  | false =>
    have large (d : UInt8) : ¬ d.toUInt32 + 10 < 10 := by
      rw [UInt32.lt_iff_toNat_lt, UInt32.toNat_add, UInt8.toNat_toUInt32]
      change ¬ (d.toNat + 10) % 2 ^ 32 < 10
      have := d.toNat_lt
      omega
    rw [digitValue, digit, if_neg Bool.false_ne_true]
    split
    · rw [decide_eq_false (large _), Bool.and_false]
    · rw [decide_eq_false (large _), Bool.and_false]

lemma digitsValue_whole (n : Nat) (all : ∀ c ∈ s, isDigit c) :
    digitsValue 10 n s = s.foldl (fun n c => n * 10 + (c.toNat - 48)) n := by
  induction s generalizing n with
  | nil => rfl
  | cons c s ih =>
    obtain ⟨digit, rest⟩ := List.forall_mem_cons.mp all
    rw [digitsValue, tenDigit_eq, if_pos digit, ih _ rest, List.foldl_cons, digitValue_digit digit]
    rfl

lemma digitsStart_ten (all : ∀ c ∈ s, isDigit c) :
    digitsStart s 10 = (10, s) ∨ ∃ rest, s = 48 :: rest ∧ digitsStart s 10 = (10, rest) := by
  fun_cases digitsStart s 10 with
  | case1 c more hex => exact absurd (all 120 (by simp)) (by decide)
  | case2 c more not_hex => exact absurd (all 120 (by simp)) (by decide)
  | case3 rest plain => exact .inr ⟨rest, rfl, rfl⟩
  | case4 s plain => exact .inl rfl

lemma DecimalNumber.strtoulValue_eq (number : DecimalNumber s n) :
    strtoulValue s 10 = n := by
  rw [strtoulValue_start, ← number.value]
  rcases digitsStart_ten number.digits with same | ⟨rest, rfl, behind⟩
  · rw [same]
    exact digitsValue_whole 0 number.digits
  · rw [behind]
    exact digitsValue_whole 0 (List.forall_mem_cons.mp number.digits).2

lemma decimalNumber_of_digits (read : ReadWhole s) (all : ∀ c ∈ s, isDigit c) :
    DecimalNumber s (strtoulValue s 10) := by
  have some_digit : s ≠ [] := by
    rintro rfl
    exact read.1 rfl
  have number : DecimalNumber s (s.foldl (fun n c => n * 10 + (c.toNat - 48)) 0) :=
    ⟨some_digit, all, rfl⟩
  rw [number.strtoulValue_eq]
  exact number

/-- `p = strchr (s, c)`, and `*p++ = '\0'` if it is there. -/
def cutAt (c : UInt8) : List UInt8 → Option (List UInt8 × List UInt8)
  | [] => none
  | d :: s => if d = c then some ([], s) else (cutAt c s).map fun r => (d :: r.1, r.2)

lemma cutAt_eq_none : cutAt c s = none ↔ c ∉ s := by
  induction s with
  | nil => exact iff_of_true rfl List.not_mem_nil
  | cons d s ih =>
    rw [cutAt, List.mem_cons, not_or]
    by_cases here : d = c
    · rw [if_pos here]
      exact iff_of_false (Option.some_ne_none _) fun apart => apart.1 here.symm
    · rw [if_neg here, Option.map_eq_none_iff, ih]
      exact (and_iff_right fun same => here same.symm).symm

lemma cutAt_eq_some {before behind : List UInt8} :
    cutAt c s = some (before, behind) ↔ s = before ++ c :: behind ∧ c ∉ before := by
  induction s generalizing before with
  | nil =>
    refine iff_of_false (Option.some_ne_none _).symm fun ⟨split, _⟩ => ?_
    exact List.append_ne_nil_of_right_ne_nil before (List.cons_ne_nil c behind) split.symm
  | cons d s ih =>
    rw [cutAt]
    by_cases here : d = c
    · subst here
      rw [if_pos rfl, Option.some_inj, Prod.mk.injEq]
      constructor
      · rintro ⟨rfl, rfl⟩
        exact ⟨rfl, List.not_mem_nil⟩
      · rintro ⟨split, apart⟩
        cases before with
        | nil => exact ⟨rfl, (List.cons.inj split).2⟩
        | cons e before =>
          obtain rfl := (List.cons.inj split).1
          exact absurd List.mem_cons_self apart
    · rw [if_neg here, Option.map_eq_some_iff]
      constructor
      · rintro ⟨⟨before', behind'⟩, found, same⟩
        obtain ⟨rfl, rfl⟩ := Prod.mk.inj same
        obtain ⟨rfl, apart⟩ := ih.mp found
        refine ⟨rfl, fun member => ?_⟩
        rcases List.mem_cons.mp member with first | later
        · exact here first.symm
        · exact apart later
      · rintro ⟨split, apart⟩
        cases before with
        | nil => exact absurd (List.cons.inj split).1 here
        | cons e before =>
          obtain ⟨rfl, rfl⟩ := List.cons.inj split
          exact ⟨(before, behind), ih.mpr ⟨rfl, fun later => apart (List.mem_cons_of_mem _ later)⟩,
            rfl⟩

/-!
## Printed numbers

`sprintf ("%u")` and `sprintf ("%08lx")`, and what `simple_strtoul` makes of a
printed decimal number: the number, and the text behind it.
-/

def decimal (n : Nat) : List UInt8 :=
  if n < 10 then [UInt8.ofNat (48 + n)]
  else decimal (n / 10) ++ [UInt8.ofNat (48 + n % 10)]

def hexDigit (n : Nat) : UInt8 := if n < 10 then UInt8.ofNat (48 + n) else UInt8.ofNat (87 + n)

/-- The `k` lowest digits of `sprintf (buf, "%0..lx", n)`. -/
def hexDigits : Nat → Nat → List UInt8
  | 0, _ => []
  | k + 1, n => hexDigits k (n / 16) ++ [hexDigit (n % 16)]

end NumberText
