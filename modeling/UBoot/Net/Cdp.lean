import UBoot.Net.Dns

/-!
# The CDP handler (net/net.c)

A frame lies at address 0 of the memory, `len` bytes long. `none` is a read at or behind its end, or
a loop that has not ended with the turns it was given. CONFIG_CDP_APPLIANCE_VLAN_TYPE is not set.
-/

namespace Cdp

open ByteMemory Guarded
open Dns (byte half)

def cdpNativeVlanTlv : Nat := 0x000a
def cdpApplianceVlanTlv : Nat := 0x000e

def cdpSnapHdr : List UInt8 := [0xAA, 0xAA, 0x03, 0x00, 0x00, 0x0C, 0x20, 0x00]

inductive Message where
  | protocolVersion (version : UInt8)
    -- ** WARNING: CDP packet received with a protocol version %d > 2
  | tooShort                            -- ** CDP packet is too short
  deriving DecidableEq

/-- `CDPApplianceVLAN`, `CDPNativeVLAN` and `CDPOK`. -/
structure Globals where
  applianceVlan : UInt16
  nativeVlan : UInt16
  ok : Bool
  deriving DecidableEq

structure Outcome where
  globals : Globals
  out : List Message
  deriving DecidableEq

def load16 (m : Mem) (len p : Nat) : Option UInt16 :=
  (half m len p).map fun _ => (m p).toUInt16 + ((m (p + 1)).toUInt16 <<< 8)

def swap16 (v : UInt16) : UInt16 := (v <<< 8) ||| (v >>> 8)

def fold (result : UInt32) : UInt32 := (result &&& (0xFFFF : UInt32)) + (result >>> 16)

/-- The loop over `len / 2` words: the sum, and where the last byte is if there is one. -/
def sumWords (m : Mem) (frame : Nat) : Nat → Nat → UInt32 → Option UInt32
  | buff, len + 2, result =>
    (load16 m frame buff).bind fun p =>
      let result := result + p.toUInt32
      let folded := if result &&& (0x80000000 : UInt32) ≠ 0 then fold result else result
      sumWords m frame (buff + 2) len folded
  | buff, 1, result =>
    -- the last byte is extended with its sign
    (byte m frame buff).map fun b =>
      let leftover :=
        if b &&& (0x80 : UInt8) ≠ 0 then b.toUInt16 ||| (0xFF00 : UInt16) else b.toUInt16
      (result &&& (0xFFFF0000 : UInt32)) |||
        ((result + leftover.toUInt32) &&& (0xFFFF : UInt32))
  | _, 0, result => some result

/-- The sum of the whole buffer, for a `buff` at an odd address or not. `while (result >> 16)` has
at most two turns, and a turn more changes nothing. -/
def sumAll (m : Mem) (frame : Nat) (odd : Bool) (buff len : Nat) : Option UInt32 :=
  if len = 0 then some 0
  else if odd then
    (byte m frame buff).bind fun first =>
      (sumWords m frame (buff + 1) (len - 1) (first.toUInt32 <<< 8)).map fun result =>
        let result := fold (fold result)
        ((result >>> 8) &&& (0xFF : UInt32)) ||| ((result &&& (0xFF : UInt32)) <<< 8)
  else (sumWords m frame buff len 0).map fun result => fold (fold result)

def cdpComputeCsum (m : Mem) (frame : Nat) (odd : Bool) (buff len : Nat) : Option UInt16 :=
  (sumAll m frame odd buff (len % 2 ^ 16)).map fun result =>
    let csum := ~~~(fold (fold (fold result))).toUInt16
    if csum ≠ swap16 csum then swap16 csum else csum

/-- The loop over the data of CDP_APPLIANCE_VLAN_TLV. `some none` goes to `pkt_short`. -/
def applianceLoop (m : Mem) (len : Nat) : Nat → Nat → UInt16 → Option (Option UInt16)
  | _, 0, vlan => some (some vlan)
  | t, tlen + 3, _ =>
    (byte m len t).bind fun _applid => (half m len (t + 1)).bind fun ss =>
      applianceLoop m len (t + 3) tlen (UInt16.ofNat ss)
  | _, _, _ => some none

def dataLen (tlen : Nat) : Nat := (tlen + (2 ^ 16 - 4)) % 2 ^ 16

/-- The `switch`, with `ss` at the data of the TLV. -/
def switchType (m : Mem) (len type tlen ss : Nat) (vlan nvlan : UInt16) :
    Option (Option (UInt16 × UInt16)) :=
  if type = cdpNativeVlanTlv then
    (load16 m len ss).map fun nvlan => some (vlan, nvlan)
  else if type = cdpApplianceVlanTlv then
    (applianceLoop m len ss (dataLen tlen) vlan).map fun r => r.map fun vlan => (vlan, nvlan)
  else some (some (vlan, nvlan))

/-- The loop over the TLVs from `pkt` on, with so many turns. -/
def tlvLoop (m : Mem) (len : Nat) : Nat → Nat → UInt16 → UInt16 →
    Option (Option (UInt16 × UInt16))
  | 0, _, _, _ => none
  | turns + 1, pkt, vlan, nvlan =>
    if len ≤ pkt then some (some (vlan, nvlan))
    else if len - pkt < 4 then some none
    else
      (half m len pkt).bind fun type => (half m len (pkt + 2)).bind fun tlen =>
        if len - pkt < tlen then some none
        else
          (switchType m len type tlen (pkt + 4) vlan nvlan).bind fun r =>
            match r with
            | none => some none
            | some (vlan, nvlan) => tlvLoop m len turns (pkt + tlen) vlan nvlan

def snapHeader (m : Mem) (len : Nat) : Option (List UInt8) :=
  (List.range cdpSnapHdr.length).mapM (byte m len)

def readTlvs (turns : Nat) (g : Globals) (out : List Message) (m : Mem) (len : Nat) :
    Option Outcome :=
  (tlvLoop m len turns 12 0xFFFF 0xFFFF).map fun r =>
    match r with
    | none => ⟨g, out ++ [.tooShort]⟩
    | some (vlan, nvlan) => ⟨⟨vlan, nvlan, true⟩, out⟩

/-- `CDPHandler (pkt, len)`, with `pkt` at an odd address or not. -/
def cdpHandler (turns : Nat) (g : Globals) (odd : Bool) (m : Mem) (len : Nat) : Option Outcome :=
  if len < cdpSnapHdr.length + 4 then some ⟨g, [.tooShort]⟩
  else
    (snapHeader m len).bind fun hdr =>
      if hdr ≠ cdpSnapHdr then some ⟨g, []⟩
      else
        (byte m len 8).bind fun version => (byte m len 9).bind fun ttl =>
          if version < 2 ∨ ttl = 0 then some ⟨g, []⟩
          else
            let out := if version ≠ 2 then [Message.protocolVersion version] else []
            (cdpComputeCsum m len odd 8 (len - 8)).bind fun csum =>
              if csum ≠ 0 then some ⟨g, out⟩ else readTlvs turns g out m len

def typeAt (m : Mem) (p : Nat) : Nat := be16 m p
def tlenAt (m : Mem) (p : Nat) : Nat := be16 m (p + 2)

/-- A TLV that is not longer than what is left of the frame. -/
def Whole (m : Mem) (len p : Nat) : Prop := p + 4 ≤ len ∧ p + tlenAt m p ≤ len

def Passes (m : Mem) (len p : Nat) : Prop :=
  Whole m len p ∧ ¬ (typeAt m p = cdpApplianceVlanTlv ∧ dataLen (tlenAt m p) % 3 ≠ 0)

inductive Reached (m : Mem) (len : Nat) : Nat → Nat → Prop where
  | here {p : Nat} : Reached m len p p
  | next {p q : Nat} : Passes m len p → Reached m len (p + tlenAt m p) q → Reached m len p q

/-- A TLV has a length, and the data that its type needs is in the frame. -/
structure Sized (m : Mem) (len p : Nat) : Prop where
  nonzero : tlenAt m p ≠ 0
  native : typeAt m p = cdpNativeVlanTlv → p + 4 + 2 ≤ len
  appliance : typeAt m p = cdpApplianceVlanTlv → p + 4 + 3 * (dataLen (tlenAt m p) / 3) ≤ len

structure Accepted (m : Mem) (len : Nat) (odd : Bool) : Prop where
  room : 12 ≤ len
  header : slice m 0 8 = cdpSnapHdr
  version : 2 ≤ m 8
  ttl : m 9 ≠ 0
  csum : cdpComputeCsum m len odd 8 (len - 8) = some 0

variable {m : Mem} {len : Nat}

lemma byte_inside {p : Nat} (inside : p < len) : byte m len p = some (m p) := if_pos inside

lemma half_inside {p : Nat} (inside : p + 1 < len) : half m len p = some (be16 m p) :=
  if_pos inside

lemma half_ne_none {p : Nat} : half m len p ≠ none ↔ p + 1 < len := by
  rw [half]
  by_cases inside : p + 1 < len
  · simp [inside]
  · simp [inside]

lemma load16_ne_none {p : Nat} : load16 m len p ≠ none ↔ p + 1 < len := by
  rw [load16, Ne, Option.map_eq_none_iff]
  exact half_ne_none

lemma sumWords_inside (buff n : Nat) (result : UInt32) (inside : buff + n ≤ len) :
    sumWords m len buff n result ≠ none := by
  fun_induction sumWords m len buff n result with
  | case1 buff n result ih =>
    have there := (load16_ne_none (m := m) (p := buff)).mpr (by omega : buff + 1 < len)
    obtain ⟨p, loaded⟩ := Option.ne_none_iff_exists'.mp there
    rw [loaded, Option.bind_some]
    exact ih p (by omega)
  | case2 buff result =>
    rw [byte_inside (by omega)]
    exact Option.some_ne_none _
  | case3 buff result => exact Option.some_ne_none _

lemma csum_inside (odd : Bool) (buff n : Nat) (inside : buff + n ≤ len) :
    ∃ csum, cdpComputeCsum m len odd buff n = some csum := by
  have all : sumAll m len odd buff (n % 2 ^ 16) ≠ none := by
    rw [sumAll]
    by_cases empty : n % 2 ^ 16 = 0
    · rw [if_pos empty]
      exact Option.some_ne_none _
    rw [if_neg empty]
    cases odd with
    | true =>
      rw [if_pos rfl, byte_inside (by omega), Option.bind_some, Ne, Option.map_eq_none_iff]
      exact sumWords_inside _ _ _ (by omega)
    | false =>
      rw [if_neg Bool.false_ne_true, Ne, Option.map_eq_none_iff]
      exact sumWords_inside _ _ _ (by omega)
  obtain ⟨result, summed⟩ := Option.ne_none_iff_exists'.mp all
  exact ⟨_, congrArg (Option.map _) summed⟩

lemma applianceLoop_ne_none (t n : Nat) (vlan : UInt16) (start : t ≤ len) :
    applianceLoop m len t n vlan ≠ none ↔ t + 3 * (n / 3) ≤ len := by
  fun_induction applianceLoop m len t n vlan with
  | case1 t vlan => simpa using start
  | case2 t n vlan ih =>
    have third : (n + 3) / 3 = n / 3 + 1 := by omega
    rw [third]
    by_cases inside : t + 3 ≤ len
    · rw [byte_inside (by omega), Option.bind_some, half_inside (by omega), Option.bind_some,
        ih (be16 m (t + 1)) inside]
      omega
    constructor
    · intro found
      refine absurd ?_ found
      rw [half, if_neg (by omega), Option.bind_none]
      cases byte m len t with
      | none => rfl
      | some b => rfl
    · intro room
      omega
  | case3 n t vlan empty more =>
    have small : n / 3 = 0 := by
      have below : ∀ k, n ≠ k + 3 := fun k same => more k same
      have three : n < 3 := by
        by_contra large
        exact below (n - 3) (by omega)
      omega
    simpa [small] using start

lemma applianceLoop_short {t n : Nat} {vlan : UInt16} {r : Option UInt16}
    (looped : applianceLoop m len t n vlan = some r) : r = none ↔ n % 3 ≠ 0 := by
  fun_induction applianceLoop m len t n vlan with
  | case1 t vlan =>
    cases looped
    simp
  | case2 t n vlan ih =>
    obtain ⟨applid, -, rest⟩ := Option.bind_eq_some_iff.mp looped
    obtain ⟨ss, -, rest⟩ := Option.bind_eq_some_iff.mp rest
    rw [ih ss rest]
    omega
  | case3 n t vlan empty more =>
    cases looped
    have below : ∀ k, n ≠ k + 3 := fun k same => more k same
    have three : n < 3 := by
      by_contra large
      exact below (n - 3) (by omega)
    have nonzero : n ≠ 0 := fun zero => empty zero
    exact iff_of_true rfl (by omega)

variable {p : Nat} {vlan nvlan : UInt16}

lemma switchType_ne_none (room : p + 4 ≤ len) :
    switchType m len (typeAt m p) (tlenAt m p) (p + 4) vlan nvlan ≠ none ↔
      (typeAt m p = cdpNativeVlanTlv → p + 4 + 2 ≤ len) ∧
        (typeAt m p = cdpApplianceVlanTlv →
          p + 4 + 3 * (dataLen (tlenAt m p) / 3) ≤ len) := by
  rw [switchType]
  by_cases native : typeAt m p = cdpNativeVlanTlv
  · have other : typeAt m p ≠ cdpApplianceVlanTlv := by
      rw [native]
      decide
    rw [if_pos native, Ne, Option.map_eq_none_iff]
    constructor
    · intro read
      have inside := load16_ne_none.mp read
      exact ⟨fun _ => by omega, fun appliance => absurd appliance other⟩
    · rintro ⟨inside, -⟩
      exact load16_ne_none.mpr (inside native)
  · rw [if_neg native]
    by_cases appliance : typeAt m p = cdpApplianceVlanTlv
    · rw [if_pos appliance, Ne, Option.map_eq_none_iff]
      constructor
      · intro read
        exact ⟨fun type => absurd type native,
          fun _ => (applianceLoop_ne_none _ _ _ room).mp read⟩
      · rintro ⟨-, inside⟩
        exact (applianceLoop_ne_none _ _ _ room).mpr (inside appliance)
    · rw [if_neg appliance]
      exact iff_of_true (Option.some_ne_none _)
        ⟨fun type => absurd type native, fun type => absurd type appliance⟩

lemma switchType_short {r : Option (UInt16 × UInt16)}
    (switched : switchType m len (typeAt m p) (tlenAt m p) (p + 4) vlan nvlan = some r) :
    r = none ↔ typeAt m p = cdpApplianceVlanTlv ∧ dataLen (tlenAt m p) % 3 ≠ 0 := by
  rw [switchType] at switched
  by_cases native : typeAt m p = cdpNativeVlanTlv
  · rw [if_pos native] at switched
    obtain ⟨_, -, rfl⟩ := Option.map_eq_some_iff.mp switched
    refine iff_of_false (Option.some_ne_none _) ?_
    rw [native]
    exact fun both => absurd both.1 (by decide)
  · rw [if_neg native] at switched
    by_cases appliance : typeAt m p = cdpApplianceVlanTlv
    · rw [if_pos appliance] at switched
      obtain ⟨s, looped, rfl⟩ := Option.map_eq_some_iff.mp switched
      rw [Option.map_eq_none_iff, applianceLoop_short looped]
      exact (and_iff_right appliance).symm
    · rw [if_neg appliance] at switched
      cases switched
      exact iff_of_false (Option.some_ne_none _) fun both => appliance both.1

lemma tlvLoop_stops (turns : Nat) (stop : ¬ Whole m len p) :
    tlvLoop m len (turns + 1) p vlan nvlan ≠ none := by
  rw [tlvLoop]
  by_cases finished : len ≤ p
  · rw [if_pos finished]
    exact Option.some_ne_none _
  rw [if_neg finished]
  by_cases short : len - p < 4
  · rw [if_pos short]
    exact Option.some_ne_none _
  rw [if_neg short, half_inside (by omega), Option.bind_some, half_inside (by omega),
    Option.bind_some]
  have long : len - p < be16 m (p + 2) := by
    by_contra inside
    exact stop ⟨by omega, by rw [tlenAt]; omega⟩
  rw [if_pos long]
  exact Option.some_ne_none _

lemma tlvLoop_whole (turns : Nat) (whole : Whole m len p) :
    tlvLoop m len (turns + 1) p vlan nvlan ≠ none ↔
      ∃ r, switchType m len (typeAt m p) (tlenAt m p) (p + 4) vlan nvlan = some r ∧
        ∀ v, r = some v → tlvLoop m len turns (p + tlenAt m p) v.1 v.2 ≠ none := by
  obtain ⟨room, inside⟩ := whole
  have goes : ¬ len - p < be16 m (p + 2) := by
    rw [tlenAt] at inside
    omega
  rw [tlvLoop, if_neg (by omega), if_neg (by omega), half_inside (by omega), Option.bind_some,
    half_inside (by omega), Option.bind_some, if_neg goes, exists_of_bind]
  refine exists_congr fun r => and_congr_right fun _ => ?_
  cases r with
  | none => exact iff_of_true (Option.some_ne_none _) fun v absurd => by cases absurd
  | some v =>
    constructor
    · rintro found w same
      cases same
      exact found
    · exact fun found => found v rfl

lemma sized_of_turns {turns : Nat} {q : Nat} (reached : Reached m len p q)
    (returns : tlvLoop m len turns p vlan nvlan ≠ none) (whole : Whole m len q) :
    Sized m len q := by
  induction turns generalizing p vlan nvlan with
  | zero => exact absurd rfl returns
  | succ turns ih =>
    cases reached with
    | here =>
      obtain ⟨r, switched, rest⟩ := (tlvLoop_whole turns whole).mp returns
      have data := (switchType_ne_none whole.1).mp
        (Option.ne_none_iff_exists'.mpr ⟨r, switched⟩)
      refine ⟨fun zero => ?_, data.1, data.2⟩
      cases r with
      | none =>
        have short := ((switchType_short switched).mp rfl).2
        rw [zero] at short
        exact short rfl
      | some v =>
        have again := rest v rfl
        rw [zero, add_zero] at again
        exact (ih Reached.here again).nonzero zero
    | next passes further =>
      obtain ⟨r, switched, rest⟩ := (tlvLoop_whole turns passes.1).mp returns
      cases r with
      | none => exact absurd ((switchType_short switched).mp rfl) passes.2
      | some v => exact ih further (rest v rfl)

lemma turns_of_sized (sized : ∀ q, Reached m len p q → Whole m len q → Sized m len q) :
    ∃ turns, tlvLoop m len turns p vlan nvlan ≠ none := by
  induction size : len - p using Nat.strongRecOn generalizing p vlan nvlan with
  | ind left ih =>
    by_cases whole : Whole m len p
    · have here := sized p Reached.here whole
      have read : switchType m len (typeAt m p) (tlenAt m p) (p + 4) vlan nvlan ≠ none :=
        (switchType_ne_none whole.1).mpr ⟨here.native, here.appliance⟩
      obtain ⟨r, switched⟩ := Option.ne_none_iff_exists'.mp read
      cases r with
      | none =>
        refine ⟨1, (tlvLoop_whole 0 whole).mpr ⟨none, switched, fun v absurd => ?_⟩⟩
        cases absurd
      | some v =>
        have passes : Passes m len p := by
          refine ⟨whole, fun short => ?_⟩
          exact absurd ((switchType_short switched).mpr short) (Option.some_ne_none v)
        have nearer : len - (p + tlenAt m p) < left := by
          have room := whole.1
          have nonzero := here.nonzero
          omega
        obtain ⟨turns, rest⟩ : ∃ turns, tlvLoop m len turns (p + tlenAt m p) v.1 v.2 ≠ none :=
          ih _ nearer (fun q reached => sized q (Reached.next passes reached)) rfl
        refine ⟨turns + 1, (tlvLoop_whole turns whole).mpr ⟨some v, switched, ?_⟩⟩
        intro w same
        cases same
        exact rest
    · exact ⟨1, tlvLoop_stops 0 whole⟩

lemma snapHeader_inside (room : 12 ≤ len) : snapHeader m len = some (slice m 0 8) := by
  have inside : ∀ i, i < 8 → i < len := fun i small => by omega
  simp [snapHeader, cdpSnapHdr, List.range_succ, byte, slice, inside]

variable (g : Globals) (odd : Bool)

lemma cdpHandler_checks (turns : Nat) (room : 12 ≤ len) {csum : UInt16}
    (computed : cdpComputeCsum m len odd 8 (len - 8) = some csum) :
    cdpHandler turns g odd m len =
      if slice m 0 8 ≠ cdpSnapHdr then some ⟨g, []⟩
      else if m 8 < 2 ∨ m 9 = 0 then some ⟨g, []⟩
      else
        let out := if m 8 ≠ 2 then [Message.protocolVersion (m 8)] else []
        if csum ≠ 0 then some ⟨g, out⟩ else readTlvs turns g out m len := by
  have long : ¬ len < cdpSnapHdr.length + 4 := by
    simp only [cdpSnapHdr, List.length_cons, List.length_nil]
    omega
  rw [cdpHandler, if_neg long, snapHeader_inside room, Option.bind_some,
    byte_inside (p := 8) (by omega), Option.bind_some, byte_inside (p := 9) (by omega),
    Option.bind_some, computed]
  rfl

lemma rejected_returns (turns : Nat) (rejected : ¬ Accepted m len odd) :
    cdpHandler turns g odd m len ≠ none := by
  by_cases room : 12 ≤ len
  · have inside : 8 + (len - 8) ≤ len := by omega
    obtain ⟨csum, computed⟩ := csum_inside (m := m) odd 8 (len - 8) inside
    rw [cdpHandler_checks g odd turns room computed]
    by_cases header : slice m 0 8 = cdpSnapHdr
    · rw [if_neg (not_not.mpr header)]
      by_cases old : m 8 < 2 ∨ m 9 = 0
      · rw [if_pos old]
        exact Option.some_ne_none _
      rw [if_neg old]
      have wrong : csum ≠ 0 := by
        rintro rfl
        obtain ⟨version, ttl⟩ := not_or.mp old
        exact rejected ⟨room, header, UInt8.not_lt.mp version, ttl, computed⟩
      rw [if_pos wrong]
      exact Option.some_ne_none _
    · rw [if_pos header]
      exact Option.some_ne_none _
  · have short : len < cdpSnapHdr.length + 4 := by
      simp only [cdpSnapHdr, List.length_cons, List.length_nil]
      omega
    rw [cdpHandler, if_pos short]
    exact Option.some_ne_none _

lemma accepted_reads (turns : Nat) (accepted : Accepted m len odd) :
    cdpHandler turns g odd m len ≠ none ↔ tlvLoop m len turns 12 0xFFFF 0xFFFF ≠ none := by
  have young : ¬ (m 8 < 2 ∨ m 9 = 0) :=
    not_or.mpr ⟨UInt8.not_lt.mpr accepted.version, accepted.ttl⟩
  rw [cdpHandler_checks g odd turns accepted.room accepted.csum,
    if_neg (not_not.mpr accepted.header), if_neg young, if_neg (not_not.mpr rfl), readTlvs, Ne,
    Option.map_eq_none_iff]

/-- The handler ends and stays inside the frame exactly if the TLVs of an accepted frame have their
sizes, as far as they are reached. -/
theorem returns_iff_sized (m : Mem) (len : Nat) :
    (∃ turns, cdpHandler turns g odd m len ≠ none) ↔
      (Accepted m len odd → ∀ p, Reached m len 12 p → Whole m len p → Sized m len p) := by
  constructor
  · rintro ⟨turns, returns⟩ accepted p reached whole
    exact sized_of_turns reached ((accepted_reads g odd turns accepted).mp returns) whole
  · intro sized
    by_cases accepted : Accepted m len odd
    · obtain ⟨turns, returns⟩ := turns_of_sized (sized accepted)
      exact ⟨turns, (accepted_reads g odd turns accepted).mpr returns⟩
    · exact ⟨0, rejected_returns g odd 0 accepted⟩

/-- An accepted frame with a TLV of length zero. -/
def endless : Mem := ofBytes [0xAA, 0xAA, 0x03, 0x00, 0x00, 0x0C, 0x20, 0x00,
  0x02, 0x01, 0xFD, 0xFD, 0x00, 0x01, 0x00, 0x00]

theorem endless_never_returns :
    Accepted endless 16 false ∧
      ∀ turns, cdpHandler turns ⟨0, 0, false⟩ false endless 16 = none := by
  have accepted : Accepted endless 16 false :=
    ⟨by decide, by decide, by decide, by decide, by decide⟩
  refine ⟨accepted, fun turns => ?_⟩
  by_contra returns
  have read := (accepted_reads _ _ turns accepted).mp returns
  exact (sized_of_turns Reached.here read ⟨by decide, by decide⟩).nonzero (by decide)

end Cdp
