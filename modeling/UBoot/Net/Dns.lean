import Mathlib.Tactic.Ring
import UBoot.Lib.ByteMemory
import UBoot.Lib.Guarded
import UBoot.Lib.NumberText

/-!
# The DNS handler (net/dns.c)

A response lies at address 0 of the memory, `len` bytes long. `none` is a read at or behind its
end, or a loop that has not ended with the steps it was given.
-/

namespace Dns

open ByteMemory NumberText

def dnsARecord : Nat := 1
def dnsCnameRecord : Nat := 5

def dataStart : Nat := 12

/-- `NetState` is left alone, or set to NETLOOP_SUCCESS with a variable set or none. -/
inductive Outcome where
  | ignored
  | success (set : Option (List UInt8 × List UInt8))
  deriving DecidableEq

structure Client where
  dnsOurPort : Nat
  netDNSenvvar : Option (List UInt8)

/-! ## Reads -/

def byte (m : Mem) (len p : Nat) : Option UInt8 := if p < len then some (m p) else none

def half (m : Mem) (len p : Nat) : Option Nat := if p + 1 < len then some (be16 m p) else none

/-! ## Loops -/

/-- The loop that would print the packet; its index is a `u16`. -/
def dump (len : Nat) : Nat → Nat → Option Unit
  | 0, _ => none
  | fuel + 1, i => if i < len then dump len fuel ((i + 4) % 2 ^ 16) else some ()

def scan (m : Mem) (len : Nat) : Nat → Nat → Option Nat
  | 0, p => some p
  | left + 1, p => (byte m len p).bind fun b => if b = 0 then some p else scan m len left (p + 1)

/-- "Skip possible name in CNAME answer"; the zero is looked at before the end is. -/
def skipName (m : Mem) (len p : Nat) : Option Nat :=
  (byte m len p).bind fun b =>
    if b = 0xc0 then some p
    else (scan m len (len - 12 - p) p).bind fun z => (byte m len z).map fun _ => z - 1

/-- The loop through the answers: where it stops, and `found`. -/
def answers (m : Mem) (len : Nat) : Nat → Nat → Option (Nat × Bool)
  | 0, _ => none
  | fuel + 1, p =>
    if p + 12 < len then
      (skipName m len p).bind fun p => (half m len (p + 2)).bind fun type =>
        if type = dnsCnameRecord then
          (half m len (p + 10)).bind fun dlen => answers m len fuel (p + 12 + dlen)
        else some (p, type = dnsARecord)
    else some (p, false)

/-! ## The handler -/

def ipToString (m : Mem) (p : Nat) : List UInt8 :=
  decimal (m p).toNat ++ [46] ++ decimal (m (p + 1)).toNat ++ [46] ++
    decimal (m (p + 2)).toNat ++ [46] ++ decimal (m (p + 3)).toNat

def address (c : Client) (m : Mem) (len p : Nat) : Option Outcome :=
  (half m len (p + 10)).bind fun dlen =>
    if len < p + 12 + 4 then none
    else if p + 12 + dlen ≤ len then
      some (.success (c.netDNSenvvar.map fun var => (var, ipToString m (p + 12))))
    else some (.success none)

def answered (c : Client) (m : Mem) (len fuel p : Nat) : Option Outcome :=
  (answers m len fuel p).bind fun r =>
    if r.2 ∧ r.1 + 12 < len then address c m len r.1 else some (.success none)

def dnsHandler (fuel : Nat) (c : Client) (m : Mem) (dest len : Nat) : Option Outcome :=
  if dest ≠ c.dnsOurPort then some .ignored
  else (dump len fuel 0).bind fun _ => (half m len 4).bind fun nqueries =>
    if nqueries ≠ 1 then some .ignored
    else (half m len 6).bind fun nanswers =>
      if nanswers = 0 then some (.success none)
      else (scan m len (len - dataStart) dataStart).bind fun p =>
        (half m len (p + 1)).bind fun type =>
          if len < p + 5 ∨ type ≠ dnsARecord then some (.success none)
          else answered c m len fuel (p + 5)

end Dns

/-!
## Well-formed responses and the DNS handler

The handler ends a name at the byte 0xc0 or at the first zero. Labels that end in a pointer have
neither, unless the low byte of the pointer is zero; the handler then takes the type of the record
for the end of its name.
-/

namespace DnsAnswers

open ByteMemory Dns

variable {m : Mem} {len : Nat}

/-! ## Responses -/

/-- A name, and what is behind it: labels, and the root or a pointer to a name in front of
`start`. -/
inductive Name (m : Mem) (start : Nat) : Nat → Nat → Prop where
  | root {p : Nat} : m p = 0 → Name m start p (p + 1)
  | pointer {p : Nat} : 0xc0 ≤ (m p).toNat → dataStart ≤ be16 m p % 2 ^ 14 →
      be16 m p % 2 ^ 14 < start → Name m start p (p + 2)
  | label {p q : Nat} : 0 < (m p).toNat → (m p).toNat < 64 →
      Name m start (p + 1 + (m p).toNat) q → Name m start p q

/-- CNAME records and an A record: the names of their owners from end to end, and where the
address is. -/
inductive Section (m : Mem) (len : Nat) : Nat → List (Nat × Nat) → Nat → Prop where
  | address {p q : Nat} : Name m p p q → be16 m q = dnsARecord → be16 m (q + 8) = 4 →
      q + 14 ≤ len → Section m len p [(p, q)] (q + 10)
  | alias_ {p q a : Nat} {names : List (Nat × Nat)} : Name m p p q → be16 m q = dnsCnameRecord →
      Name m (q + 10) (q + 10) (q + 10 + be16 m (q + 8)) →
      Section m len (q + 10 + be16 m (q + 8)) names a → Section m len p ((p, q) :: names) a

/-- One question for an address, and the section; the first name is that of the question. -/
structure Response (m : Mem) (len : Nat) (names : List (Nat × Nat)) (a : Nat) : Prop where
  nqueries : be16 m 4 = 1
  question : ∃ q owners, names = (dataStart, q) :: owners ∧ Name m dataStart dataStart q ∧
    be16 m q = dnsARecord ∧ be16 m 6 = owners.length ∧ Section m len (q + 4) owners a

def NulFree (m : Mem) (name : Nat × Nat) : Prop :=
  ∀ i, name.1 ≤ i → i + 1 < name.2 → m i ≠ 0

def Skipped (m : Mem) (name : Nat × Nat) : Prop :=
  m name.1 = 0xc0 ∨ NulFree m name ∧ m (name.2 - 1) = 0

/-! ## Names -/

variable {p a : Nat} {names : List (Nat × Nat)}

lemma Name.long {start p q : Nat} (name : Name m start p q) : p + 1 ≤ q := by
  induction name with
  | root _ => omega
  | pointer _ _ _ => omega
  | label _ _ _ ih => omega

lemma Name.full {p q : Nat} (name : Name m dataStart p q) : m (q - 1) = 0 := by
  induction name with
  | root zero => exact zero
  | pointer _ low high => exact absurd low (Nat.not_le_of_lt high)
  | label _ _ _ ih => exact ih

lemma Name.short {start p q : Nat} (name : Name m start p q) (first : m p = 0xc0) : q = p + 2 := by
  cases name with
  | root zero => simp [zero] at first
  | pointer _ _ _ => rfl
  | label _ high _ =>
    rw [first] at high
    exact absurd high (by decide)

lemma Section.room (section_ : Section m len p names a) :
    p + 15 ≤ len := by
  induction section_ with
  | address name _ _ inside =>
    have long := name.long
    omega
  | alias_ name _ _ _ ih =>
    have long := name.long
    omega

/-! ## The scan -/

variable {q : Nat}

lemma scan_zero {left z : Nat} (low : p ≤ z) (room : z ≤ p + left) (inside : p + left ≤ len)
    (zero : m z = 0) (other : ∀ i, p ≤ i → i < z → m i ≠ 0) : scan m len left p = some z := by
  induction left generalizing p with
  | zero =>
    obtain rfl : p = z := by omega
    rfl
  | succ left ih =>
    rw [scan, byte, if_pos (by omega), Option.bind_some]
    by_cases here : p = z
    · rw [here, if_pos zero]
    · rw [if_neg (other p (Nat.le_refl p) (by omega))]
      exact ih (by omega) (by omega) (by omega) fun i above => other i (by omega)

lemma half_inside (inside : p + 1 < len) : half m len p = some (be16 m p) :=
  if_pos inside

lemma skipName_skipped {start : Nat} (name : Name m start p q) (skipped : Skipped m (p, q))
    (room : q + 11 ≤ len) : skipName m len p = some (q - 2) := by
  have long := name.long
  rw [skipName, byte, if_pos (by omega), Option.bind_some]
  rcases skipped with first | ⟨free, last⟩
  · rw [if_pos first, name.short first]
    rfl
  by_cases first : m p = 0xc0
  · rw [if_pos first, name.short first]
    rfl
  have scanned : scan m len (len - 12 - p) p = some (q - 1) :=
    scan_zero (by omega) (by omega) (by omega) last fun i low high => free i low (by omega)
  rw [if_neg first, scanned, Option.bind_some, byte, if_pos (by omega)]
  rfl

lemma skipName_other {start : Nat} (name : Name m start p q) (free : NulFree m (p, q))
    (other : ¬ Skipped m (p, q)) (type : m q = 0) (room : q + 12 ≤ len) :
    skipName m len p = some (q - 1) := by
  have long := name.long
  have first : m p ≠ 0xc0 := fun first => other (.inl first)
  have last : m (q - 1) ≠ 0 := fun last => other (.inr ⟨free, last⟩)
  have scanned : scan m len (len - 12 - p) p = some q := by
    refine scan_zero (by omega) (by omega) (by omega) type fun i low high => ?_
    by_cases end_ : i = q - 1
    · rw [end_]
      exact last
    · exact free i low (show i + 1 < q by omega)
  rw [skipName, byte, if_pos (by omega), Option.bind_some, if_neg first, scanned,
    Option.bind_some, byte, if_pos (by omega)]
  rfl

/-! ## The answers -/

variable {fuel : Nat} {r : Nat × Bool}

lemma answers_alias (room : p + 12 < len) (skip : skipName m len p = some q) (inside : q + 11 < len)
    (type : be16 m (q + 2) = dnsCnameRecord) :
    answers m len (fuel + 1) p = answers m len fuel (q + 12 + be16 m (q + 10)) := by
  rw [answers, if_pos room, skip, Option.bind_some, half_inside (by omega), Option.bind_some,
    if_pos type, half_inside (by omega), Option.bind_some]

lemma answers_other (room : p + 12 < len) (skip : skipName m len p = some q) (inside : q + 3 < len)
    (type : be16 m (q + 2) ≠ dnsCnameRecord) :
    answers m len (fuel + 1) p = some (q, decide (be16 m (q + 2) = dnsARecord)) := by
  rw [answers, if_pos room, skip, Option.bind_some, half_inside (by omega), Option.bind_some,
    if_neg type]

lemma answers_skipped (low : 0 < p) (section_ : Section m len p names a)
    (skipped : ∀ name ∈ names, Skipped m name) (enough : len ≤ p + fuel) :
    ∃ r, answers m len fuel p = some (r, true) ∧ r + 12 = a ∧ a + 4 ≤ len ∧
      be16 m (r + 10) = 4 := by
  induction section_ generalizing fuel with
  | @address p q name type length inside =>
    have long := name.long
    obtain ⟨n, rfl⟩ := Nat.exists_eq_succ_of_ne_zero (show fuel ≠ 0 by omega)
    have here : Skipped m (p, q) := skipped _ List.mem_cons_self
    have skip := skipName_skipped name here (show q + 11 ≤ len by omega)
    have typeAt : q - 2 + 2 = q := by omega
    have lengthAt : q - 2 + 10 = q + 8 := by omega
    have other : be16 m (q - 2 + 2) ≠ dnsCnameRecord := by
      rw [typeAt, type]
      decide
    refine ⟨q - 2, ?_, by omega, by omega, by rw [lengthAt, length]⟩
    rw [answers_other (by omega) skip (by omega) other, typeAt, type]
    rfl
  | @alias_ p q a names name type _ rest ih =>
    have long := name.long
    have room := rest.room
    obtain ⟨n, rfl⟩ := Nat.exists_eq_succ_of_ne_zero (show fuel ≠ 0 by omega)
    have here : Skipped m (p, q) := skipped _ List.mem_cons_self
    have skip := skipName_skipped name here (show q + 11 ≤ len by omega)
    have typeAt : q - 2 + 2 = q := by omega
    have lengthAt : q - 2 + 10 = q + 8 := by omega
    have nextAt : q - 2 + 12 = q + 10 := by omega
    rw [answers_alias (by omega) skip (by omega) (by rw [typeAt, type]), lengthAt, nextAt]
    exact ih (by omega) (fun name mem => skipped name (List.mem_cons_of_mem _ mem)) (by omega)

lemma answers_late {n : Nat} (name : Name m p p q) (free : NulFree m (p, q))
    (other : ¬ Skipped m (p, q)) (high : 0 < be16 m q) (low : be16 m q < 256) (room : q + 14 ≤ len)
    : answers m len (n + 1) p = some (q - 1, false) := by
  have long := name.long
  have zero : (m q).toNat = 0 := by
    unfold be16 at low
    omega
  have late : 256 ≤ be16 m (q - 1 + 2) := by
    rw [show q - 1 + 2 = q + 1 by omega]
    unfold be16 at high ⊢
    omega
  have skip := skipName_other name free other (UInt8.toNat_inj.mp zero) (show q + 12 ≤ len by omega)
  have alias_ : dnsCnameRecord < 256 := by decide
  have address : dnsARecord < 256 := by decide
  rw [answers_other (by omega) skip (by omega) (by omega), decide_eq_false (by omega)]

lemma answers_unskipped (low : 0 < p) (section_ : Section m len p names a)
    (free : ∀ name ∈ names, NulFree m name) (stops : answers m len fuel p = some r)
    (found : r.2 = true) :
    ∀ name ∈ names, Skipped m name := by
  induction section_ generalizing fuel with
  | @address p q name type length inside =>
    cases fuel with
    | zero => cases stops
    | succ n =>
      intro other mem
      rw [List.mem_singleton.mp mem]
      refine Classical.byContradiction fun unskipped => ?_
      have late := answers_late (n := n) name (free _ List.mem_cons_self) unskipped
        (by rw [type]; decide) (by rw [type]; decide) inside
      rw [late] at stops
      rw [← Option.some.inj stops] at found
      cases found
  | @alias_ p q a names name type _ rest ih =>
    have long := name.long
    have room := rest.room
    cases fuel with
    | zero => cases stops
    | succ n =>
      have here : Skipped m (p, q) := by
        refine Classical.byContradiction fun unskipped => ?_
        have late := answers_late (n := n) name (free _ List.mem_cons_self) unskipped
          (by rw [type]; decide) (by rw [type]; decide) (show q + 14 ≤ len by omega)
        rw [late] at stops
        rw [← Option.some.inj stops] at found
        cases found
      have skip := skipName_skipped name here (show q + 11 ≤ len by omega)
      have typeAt : q - 2 + 2 = q := by omega
      have lengthAt : q - 2 + 10 = q + 8 := by omega
      have nextAt : q - 2 + 12 = q + 10 := by omega
      rw [answers_alias (by omega) skip (by omega) (by rw [typeAt, type]), lengthAt,
        nextAt] at stops
      intro other mem
      rcases List.mem_cons.mp mem with rfl | mem
      · exact here
      · exact ih (by omega) (fun name mem => free name (List.mem_cons_of_mem _ mem)) stops other mem

/-! ## Reads and steps -/

lemma dump_ends (small : len ≤ 65532) {i : Nat} (bound : i < 2 ^ 16) (enough : len ≤ i + 4 * fuel) :
    dump len (fuel + 1) i = some () := by
  induction fuel generalizing i with
  | zero =>
    rw [dump, if_neg (by omega)]
  | succ fuel ih =>
    rw [dump]
    split_ifs with low
    · rw [Nat.mod_eq_of_lt (by omega)]
      exact ih (by omega) (by omega)
    · rfl

lemma dump_small {i : Nat} (aligned : i % 4 = 0) (bound : i < 2 ^ 16)
    (ends : dump len fuel i = some ()) : len ≤ 65532 := by
  induction fuel generalizing i with
  | zero => cases ends
  | succ fuel ih =>
    rw [dump] at ends
    split_ifs at ends with low
    · exact ih (by omega) (by omega) ends
    · omega

lemma scan_ends {left : Nat} (inside : p + left ≤ len) :
    ∃ z, scan m len left p = some z ∧ p ≤ z ∧ z ≤ p + left := by
  induction left generalizing p with
  | zero => exact ⟨p, rfl, Nat.le_refl p, Nat.le_refl p⟩
  | succ left ih =>
    rw [scan, byte, if_pos (by omega), Option.bind_some]
    split_ifs with zero
    · exact ⟨p, rfl, Nat.le_refl p, by omega⟩
    · obtain ⟨z, stops, low, high⟩ := ih (p := p + 1) (by omega)
      exact ⟨z, stops, by omega, by omega⟩

lemma skipName_ends (room : p + 12 < len) :
    ∃ q, skipName m len p = some q ∧ p ≤ q + 1 ∧ q + 12 ≤ len := by
  rw [skipName, byte, if_pos (by omega), Option.bind_some]
  split_ifs with pointer
  · exact ⟨p, rfl, by omega, by omega⟩
  obtain ⟨z, stops, low, high⟩ := scan_ends (m := m)
    (show p + (len - 12 - p) ≤ len by omega)
  refine ⟨z - 1, ?_, by omega, by omega⟩
  rw [stops, Option.bind_some, byte, if_pos (by omega)]
  rfl

lemma answers_ends (enough : len ≤ p + 11 * fuel) :
    ∃ r, answers m len (fuel + 1) p = some r := by
  induction fuel generalizing p with
  | zero => exact ⟨(p, false), by rw [answers, if_neg (by omega)]⟩
  | succ fuel ih =>
    by_cases room : p + 12 < len
    · obtain ⟨q, skip, low, high⟩ := skipName_ends (m := m) room
      by_cases type : be16 m (q + 2) = dnsCnameRecord
      · rw [answers_alias room skip (by omega) type]
        exact ih (by omega)
      · exact ⟨_, answers_other room skip (by omega) type⟩
    · exact ⟨(p, false), by rw [answers, if_neg room]⟩

inductive Finds (m : Mem) (len : Nat) : Nat → Nat → Prop where
  | here {p q : Nat} : p + 12 < len → skipName m len p = some q → be16 m (q + 2) = dnsARecord →
      Finds m len p q
  | later {p q r : Nat} : p + 12 < len → skipName m len p = some q →
      be16 m (q + 2) = dnsCnameRecord → Finds m len (q + 12 + be16 m (q + 10)) r → Finds m len p r

lemma finds_iff (stops : answers m len fuel p = some r) (q : Nat) :
    Finds m len p q ↔ r = (q, true) := by
  induction fuel generalizing p with
  | zero => cases stops
  | succ fuel ih =>
    by_cases room : p + 12 < len
    · obtain ⟨here, skip, -, inside⟩ := skipName_ends (m := m) room
      by_cases type : be16 m (here + 2) = dnsCnameRecord
      · rw [answers_alias room skip (by omega) type] at stops
        rw [← ih stops]
        constructor
        · intro finds
          cases finds with
          | here _ other is =>
            obtain rfl := Option.some.inj (skip.symm.trans other)
            exact absurd (type.symm.trans is) (by decide)
          | later _ other _ rest =>
            obtain rfl := Option.some.inj (skip.symm.trans other)
            exact rest
        · exact .later room skip type
      · rw [answers_other room skip (by omega) type] at stops
        rw [← Option.some.inj stops, Prod.mk.injEq, decide_eq_true_iff]
        constructor
        · intro finds
          cases finds with
          | here _ other is =>
            obtain rfl := Option.some.inj (skip.symm.trans other)
            exact ⟨rfl, is⟩
          | later _ other is _ =>
            obtain rfl := Option.some.inj (skip.symm.trans other)
            exact absurd is type
        · rintro ⟨rfl, is⟩
          exact .here room skip is
    · rw [answers, if_neg room] at stops
      cases stops
      constructor
      · intro finds
        cases finds with
        | here low _ _ => exact absurd low room
        | later low _ _ _ => exact absurd low room
      · intro same
        cases same

/-! ## The whole packet -/

/-- The packet reaches as far as it is read: the two counts, the type of the question, and four
bytes of the address that is found. -/
structure Covers (m : Mem) (len : Nat) : Prop where
  dumped : len ≤ 65532
  nqueries : 6 ≤ len
  nanswers : be16 m 4 = 1 → 8 ≤ len
  type : be16 m 4 = 1 → be16 m 6 ≠ 0 →
    ∀ p, scan m len (len - dataStart) dataStart = some p → p + 3 ≤ len
  address : be16 m 4 = 1 → be16 m 6 ≠ 0 →
    ∀ p, scan m len (len - dataStart) dataStart = some p → p + 5 ≤ len →
      be16 m (p + 1) = dnsARecord → ∀ q, Finds m len (p + 5) q → q + 12 < len → q + 16 ≤ len

lemma half_bind {α : Type} {f : Nat → Option α} :
    (half m len p).bind f ≠ none ↔ p + 2 ≤ len ∧ f (be16 m p) ≠ none :=
  Guarded.bind_ne_none

lemma address_iff (c : Client) (inside : q + 12 < len) :
    address c m len q ≠ none ↔ q + 16 ≤ len := by
  rw [address, half_inside (by omega), Option.bind_some]
  split_ifs with cut room
  · exact ⟨fun some_ => absurd rfl some_, fun fits => absurd cut (Nat.not_lt_of_le fits)⟩
  · exact ⟨fun _ => Nat.le_of_not_lt cut, fun _ => Option.some_ne_none _⟩
  · exact ⟨fun _ => Nat.le_of_not_lt cut, fun _ => Option.some_ne_none _⟩

lemma answered_iff (c : Client) (stops : answers m len fuel p = some r) :
    answered c m len fuel p ≠ none ↔
      ∀ q, Finds m len p q → q + 12 < len → q + 16 ≤ len := by
  rw [answered, stops, Option.bind_some]
  have found := finds_iff stops
  split_ifs with here
  · rw [address_iff c here.2]
    constructor
    · intro fits q finds _
      obtain rfl := (found q).mp finds
      exact fits
    · intro fits
      exact fits r.1 ((found r.1).mpr (Prod.ext rfl here.1)) here.2
  · refine ⟨fun _ q finds low => ?_, fun _ => Option.some_ne_none _⟩
    obtain rfl := (found q).mp finds
    exact absurd ⟨rfl, low⟩ here

lemma handler_counts (c : Client) (dumped : dump len fuel 0 = some ()) :
    dnsHandler fuel c m c.dnsOurPort len ≠ none ↔ 6 ≤ len ∧ (be16 m 4 = 1 → 8 ≤ len ∧
      (be16 m 6 ≠ 0 → ∃ p, scan m len (len - dataStart) dataStart = some p ∧ p + 3 ≤ len ∧
        (p + 5 ≤ len → be16 m (p + 1) = dnsARecord → answered c m len fuel (p + 5) ≠ none))) := by
  rw [dnsHandler, if_neg (not_not.mpr rfl), dumped, Option.bind_some, half_bind]
  refine and_congr_right fun _ => ?_
  by_cases one : be16 m 4 = 1
  case neg => simp [one]
  rw [if_neg (not_not.mpr one), half_bind]
  simp only [one, true_implies]
  refine and_congr_right fun _ => ?_
  by_cases none_ : be16 m 6 = 0
  case pos => simp [none_]
  rw [if_neg none_, Guarded.exists_of_bind]
  simp only [ne_eq, none_, not_false_eq_true, true_implies]
  refine exists_congr fun p => and_congr_right fun _ => ?_
  rw [← ne_eq, half_bind]
  refine and_congr_right fun _ => ?_
  by_cases question : len < p + 5 ∨ be16 m (p + 1) ≠ dnsARecord
  · rw [if_pos question]
    refine ⟨fun _ long type => ?_, fun _ => Option.some_ne_none _⟩
    rcases question with short | other
    · exact absurd short (Nat.not_lt_of_le long)
    · exact absurd type other
  · rw [if_neg question]
    obtain ⟨long, type⟩ := not_or.mp question
    exact ⟨fun ends _ _ => ends, fun ends => ends (Nat.le_of_not_lt long) (not_not.mp type)⟩

lemma handler_ends (c : Client) (m : Mem) (len : Nat) :
    (∃ fuel, dnsHandler fuel c m c.dnsOurPort len ≠ none) ↔ Covers m len := by
  constructor
  · rintro ⟨fuel, ends⟩
    have dumped : dump len fuel 0 = some () := by
      rw [dnsHandler, if_neg (not_not.mpr rfl)] at ends
      obtain ⟨v, dumped, -⟩ := Guarded.exists_of_bind.mp ends
      exact dumped
    obtain ⟨nqueries, rest⟩ := (handler_counts c dumped).mp ends
    have small := dump_small rfl (by decide) dumped
    refine ⟨small, nqueries, fun one => (rest one).1, fun one some_ p scanned => ?_,
      fun one some_ p scanned long type => ?_⟩
    · obtain ⟨q, stops, room, -⟩ := (rest one).2 some_
      obtain rfl := Option.some.inj (stops.symm.trans scanned)
      exact room
    · obtain ⟨q, stops, -, ends⟩ := (rest one).2 some_
      obtain rfl := Option.some.inj (stops.symm.trans scanned)
      have ends := ends long type
      obtain ⟨r, stops, -⟩ := Guarded.exists_of_bind.mp ends
      exact (answered_iff c stops).mp ends
  · intro covers
    have dumped : dump len (len + 1) 0 = some () := dump_ends covers.dumped (by decide) (by omega)
    refine ⟨len + 1, (handler_counts c dumped).mpr ⟨covers.nqueries, fun one =>
      ⟨covers.nanswers one, fun some_ => ?_⟩⟩⟩
    obtain ⟨p, scanned⟩ : ∃ p, scan m len (len - dataStart) dataStart = some p := by
      by_cases long : dataStart ≤ len
      · obtain ⟨p, stops, -⟩ := scan_ends (m := m)
          (show dataStart + (len - dataStart) ≤ len by omega)
        exact ⟨p, stops⟩
      · rw [show len - dataStart = 0 by omega]
        exact ⟨dataStart, rfl⟩
    refine ⟨p, scanned, covers.type one some_ p scanned, fun long type => ?_⟩
    obtain ⟨r, stops⟩ := answers_ends (m := m) (show len ≤ p + 5 + 11 * len by omega)
    exact (answered_iff c stops).mpr (covers.address one some_ p scanned long type)

/-! ## Well-formed responses -/

lemma Section.nonempty (section_ : Section m len p names a) : names.length ≠ 0 := by
  cases section_ with
  | address _ _ _ _ => exact Nat.one_ne_zero
  | alias_ _ _ _ _ => exact Nat.succ_ne_zero _

lemma question_skipped (name : Name m dataStart dataStart q) :
    Skipped m (dataStart, q) ↔ NulFree m (dataStart, q) := by
  constructor
  · rintro (pointer | ⟨free, -⟩)
    · cases name with
      | root zero => simp [zero] at pointer
      | pointer _ low high => exact absurd low (Nat.not_le_of_lt high)
      | label _ high _ =>
        rw [pointer] at high
        exact absurd high (by decide)
    · exact free
  · exact fun free => .inr ⟨free, name.full⟩

lemma handler_response (c : Client) {owners : List (Nat × Nat)} (dumped : dump len fuel 0 = some ())
    (one : be16 m 4 = 1) (name : Name m dataStart dataStart q) (free : NulFree m (dataStart, q))
    (type : be16 m q = dnsARecord) (count : be16 m 6 = owners.length)
    (section_ : Section m len (q + 4) owners a) :
    dnsHandler fuel c m c.dnsOurPort len = answered c m len fuel (q + 4) := by
  have room := section_.room
  have long := name.long
  have some_ : be16 m 6 ≠ 0 := by
    rw [count]
    exact section_.nonempty
  have scanned : scan m len (len - dataStart) dataStart = some (q - 1) :=
    scan_zero (by omega) (by omega) (by omega) name.full
      fun i low high => free i low (show i + 1 < q by omega)
  have typeAt : q - 1 + 1 = q := by omega
  have nextAt : q - 1 + 5 = q + 4 := by omega
  rw [dnsHandler, if_neg (not_not.mpr rfl), dumped, Option.bind_some, half_inside (by omega),
    Option.bind_some, if_neg (not_not.mpr one), half_inside (by omega), Option.bind_some,
    if_neg some_, scanned, Option.bind_some, half_inside (by omega), Option.bind_some, typeAt,
    nextAt, if_neg]
  rintro (short | other)
  · omega
  · exact other type

lemma stores_of_skipped (c : Client) (small : len ≤ 65532) (response : Response m len names a)
    (skipped : ∀ name ∈ names, Skipped m name) :
    dnsHandler (len + 1) c m c.dnsOurPort len =
      some (.success (c.netDNSenvvar.map fun var => (var, ipToString m a))) := by
  obtain ⟨one, q, owners, rfl, name, type, count, section_⟩ := response
  have dumped : dump len (len + 1) 0 = some () := dump_ends small (by decide) (by omega)
  have free := (question_skipped name).mp (skipped _ List.mem_cons_self)
  have enough : len ≤ q + 4 + (len + 1) := by omega
  obtain ⟨r, stops, there, inside, length⟩ := answers_skipped (by omega) section_
    (fun name mem => skipped name (List.mem_cons_of_mem _ mem)) enough
  rw [handler_response c dumped one name free type count section_, answered, stops,
    Option.bind_some, if_pos ⟨rfl, by omega⟩, address, half_inside (by omega), Option.bind_some,
    length, if_neg (by omega), if_pos (by omega), there]

lemma skipped_of_stores {c : Client} {set : List UInt8 × List UInt8}
    (response : Response m len names a) (free : ∀ name ∈ names, NulFree m name)
    (stores : dnsHandler fuel c m c.dnsOurPort len = some (.success (some set))) :
    ∀ name ∈ names, Skipped m name := by
  obtain ⟨one, q, owners, rfl, name, type, count, section_⟩ := response
  have first := free _ List.mem_cons_self
  have dumped : dump len fuel 0 = some () := by
    rw [dnsHandler, if_neg (not_not.mpr rfl)] at stores
    obtain ⟨v, dumped, -⟩ := Option.bind_eq_some_iff.mp stores
    exact dumped
  rw [handler_response c dumped one name first type count section_, answered] at stores
  obtain ⟨r, stops, stores⟩ := Option.bind_eq_some_iff.mp stores
  have found : r.2 = true := by
    split_ifs at stores with here
    · exact here.1
    · cases stores
  intro other mem
  rcases List.mem_cons.mp mem with rfl | mem
  · exact (question_skipped name).mpr first
  · exact answers_unskipped (by omega) section_
      (fun name mem => free name (List.mem_cons_of_mem _ mem)) stops found other mem

/-! ## Packets -/

/-- The address of a response is stored, and whatever comes, the handler ends inside it. -/
structure Right (c : Client) (m : Mem) (dest len : Nat) : Prop where
  stores : dest = c.dnsOurPort → ∀ names a var, Response m len names a →
    c.netDNSenvvar = some var →
    ∃ fuel, dnsHandler fuel c m dest len = some (.success (some (var, ipToString m a)))
  ends : ∃ fuel, dnsHandler fuel c m dest len ≠ none

def Fits (c : Client) (m : Mem) (dest len : Nat) : Prop :=
  dest = c.dnsOurPort → Covers m len ∧ (c.netDNSenvvar ≠ none →
    ∀ names a, Response m len names a → ∀ name ∈ names, Skipped m name)

/-- The condition is enough for every packet. It is exact where no label of a response has a
zero in it: a label with zeros can spell a record of its own. -/
theorem right_iff_fits (c : Client) (m : Mem) (dest len : Nat) :
    (Fits c m dest len → Right c m dest len) ∧
    ((∀ names a, Response m len names a → ∀ name ∈ names, NulFree m name) →
      (Right c m dest len ↔ Fits c m dest len)) := by
  have enough : Fits c m dest len → Right c m dest len := by
    intro fits
    by_cases ours : dest = c.dnsOurPort
    · obtain ⟨covers, skipped⟩ := fits ours
      subst ours
      refine ⟨fun _ names a var response wanted => ⟨len + 1, ?_⟩, (handler_ends c m len).mpr covers⟩
      have set : c.netDNSenvvar ≠ none := wanted ▸ Option.some_ne_none var
      rw [stores_of_skipped c covers.dumped response (skipped set names a response), wanted]
      rfl
    · refine ⟨fun is => absurd is ours, 0, ?_⟩
      rw [dnsHandler, if_pos ours]
      exact Option.some_ne_none _
  refine ⟨enough, fun free => ⟨fun right ours => ?_, enough⟩⟩
  subst ours
  refine ⟨(handler_ends c m len).mp right.ends, fun wanted names a response => ?_⟩
  obtain ⟨var, set⟩ := Option.ne_none_iff_exists'.mp wanted
  obtain ⟨fuel, stores⟩ := right.stores rfl names a var response set
  exact skipped_of_stores response (free names a response) stores

def client : Client := ⟨1024, some [97]⟩

def pointed : Mem := ofBytes
  [0, 1, 0x81, 0x80, 0, 1, 0, 1, 0, 0, 0, 0, 0, 0, 1, 0, 1,
   0xc0, 12, 0, 1, 0, 1, 0, 0, 0, 0, 0, 4, 10, 0, 0, 1]

/-- The same for the name `b`, written as a label and a pointer to the root. -/
def labelled : Mem := ofBytes
  [0, 1, 0x81, 0x80, 0, 1, 0, 1, 0, 0, 0, 0, 0, 0, 1, 0, 1,
   1, 98, 0xc0, 12, 0, 1, 0, 1, 0, 0, 0, 0, 0, 4, 10, 0, 0, 1]

lemma labelled_response : Response labelled 35 [(12, 13), (17, 21)] 31 := by
  refine ⟨by decide, 13, [(17, 21)], rfl, .root (by decide), by decide, by decide, ?_⟩
  have name : Name labelled 17 17 21 :=
    .label (by decide) (by decide) (.pointer (by decide) (by decide) (by decide))
  exact .address name (by decide) (by decide) (by decide)

lemma pointed_names (response : Response pointed 33 names a) :
    names = [(12, 13), (17, 19)] := by
  obtain ⟨-, q, owners, rfl, name, -, -, section_⟩ := response
  have root : q = 13 := by
    cases name with
    | root _ => rfl
    | pointer high _ _ => exact absurd high (by decide)
    | label high _ _ => exact absurd high (by decide)
  subst root
  have pointer {q : Nat} (name : Name pointed 17 17 q) : q = 19 := name.short (by decide)
  cases section_ with
  | address name _ _ _ =>
    obtain rfl := pointer name
    rfl
  | alias_ name type _ _ =>
    obtain rfl := pointer name
    exact absurd type (by decide)

theorem right_pointed : Right client pointed client.dnsOurPort 33 := by
  refine (right_iff_fits client pointed client.dnsOurPort 33).1 fun _ => ⟨?_, fun _ => ?_⟩
  · have question : scan pointed 33 (33 - dataStart) dataStart = some 12 := by decide
    refine ⟨by decide, by decide, fun _ => by decide, fun _ _ p stops => ?_, ?_⟩
    · obtain rfl := Option.some.inj (stops.symm.trans question)
      decide
    · rintro _ _ p stops - - q finds -
      obtain rfl := Option.some.inj (stops.symm.trans question)
      have found : answers pointed 33 1 17 = some (17, true) := by decide
      obtain ⟨rfl, -⟩ := Prod.mk.inj ((finds_iff found q).mp finds)
      decide
  · intro names a response name mem
    rw [pointed_names response] at mem
    rcases List.mem_cons.mp mem with rfl | mem
    · exact (question_skipped (.root (by decide))).mpr fun i low high => absurd high (by
        dsimp only at low ⊢
        have start : dataStart = 12 := rfl
        omega)
    · obtain rfl := List.mem_singleton.mp mem
      exact Or.inl (by decide)

/-- The pointer behind a label is not seen, and the address is not stored. -/
theorem label_before_pointer : ¬ Right client labelled client.dnsOurPort 35 := by
  intro right
  obtain ⟨fuel, stores⟩ := right.stores rfl _ _ _ labelled_response rfl
  have free : ∀ name ∈ [(12, 13), (17, 21)], NulFree labelled name := by
    intro name mem i low high
    rcases List.mem_cons.mp mem with rfl | mem
    · exact absurd high (by dsimp only at low ⊢; omega)
    · obtain rfl := List.mem_singleton.mp mem
      dsimp only at low high
      obtain rfl | rfl | rfl : i = 17 ∨ i = 18 ∨ i = 19 := by omega
      all_goals decide
  have skipped := skipped_of_stores labelled_response free stores (17, 21) (by decide)
  rcases skipped with pointer | ⟨-, last⟩
  · exact absurd pointer (by decide)
  · exact absurd last (by decide)

end DnsAnswers
