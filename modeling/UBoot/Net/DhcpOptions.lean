import UBoot.Lib.Guarded
import UBoot.Net.Dhcp

/-!
# Walks over the options of a DHCP packet

`BootpVendorProcess` steps over the pad bytes one by one. `DhcpOptionsProcess` and
`DhcpMessageType` take a pad for an option with a length byte, and do not look at the length of
the packet.
-/

namespace DhcpOptions

open ByteMemory Dhcp

def optionsStart : Nat := bpVend + 4

def optionsEnd : Nat := bpVend + 4 + bootpHdrSize

def next (m : Mem) (popt : Nat) : Nat := popt + (m (popt + 1)).toNat + 2

/-- The stream at an address: where its options begin, and its end mark. -/
inductive Stream (m : Mem) : Nat → List Nat → Nat → Prop where
  | mark {popt : Nat} : m popt = 0xff → Stream m popt [] popt
  | pad {popt stop : Nat} {os : List Nat} : m popt = 0 → Stream m (popt + 1) os stop →
      Stream m popt os stop
  | option {popt stop : Nat} {os : List Nat} : m popt ≠ 0 → m popt ≠ 0xff →
      Stream m (next m popt) os stop → Stream m popt (popt :: os) stop

/-! ## The walks -/

/-- The loop of `BootpVendorProcess`: the options it processes and where it stops. -/
def vendorWalk (m : Mem) (end_ : Nat) : Nat → Nat → List Nat × Nat
  | 0, ext => ([], ext)
  | fuel + 1, ext =>
    if ext < end_ ∧ m ext ≠ 0xff then
      if m ext = 0 then vendorWalk m end_ fuel (ext + 1)
      else
        let r := vendorWalk m end_ fuel (next m ext)
        (if next m ext ≤ end_ then ext :: r.1 else r.1, r.2)
    else ([], ext)

/-- The loop of `DhcpOptionsProcess` in the same way; there is no option 0. -/
def optionsWalk (m : Mem) : Nat → Nat → List Nat × Nat
  | 0, popt => ([], popt)
  | fuel + 1, popt =>
    if popt < optionsEnd ∧ m popt ≠ 0xff then
      let r := optionsWalk m fuel (next m popt)
      (if m popt = 0 then r.1 else popt :: r.1, r.2)
    else ([], popt)

def applied (os : List Nat) (s : Client) (m : Mem) : Client × Mem :=
  os.foldl (fun r popt => dhcpOption r.1 r.2 popt) (s, m)

def typeOf (m : Mem) (os : List Nat) : Option Nat :=
  (os.find? (m · = 53)).map (fun popt => (m (popt + 2)).toNat)

/-! ## Reads -/

/-- The scan of `DhcpMessageType` in a packet of so many bytes; `none` is a read behind it. -/
def messageTypeIn (m : Mem) (len : Nat) : Nat → Nat → Option (Option Nat)
  | 0, _ => none
  | fuel + 1, popt =>
    if len ≤ popt then none
    else if m popt = 0xff then some none
    else if m popt = 53 then
      if len ≤ popt + 2 then none else some (some (m (popt + 2)).toNat)
    else if len ≤ popt + 1 then none
    else messageTypeIn m len fuel (next m popt)

def dhcpMessageTypeIn (m : Mem) (len : Nat) : Option (Option Nat) :=
  if len < optionsStart then none
  else if be32 m bpVend ≠ bootpVendorMagic then some none
  else messageTypeIn m len len optionsStart

/-- How many bytes of its value an option reads; `empty`: there is no file name in the packet. -/
def valueBytes (m : Mem) (empty : Bool) (popt : Nat) : Nat :=
  let oplen := (m (popt + 1)).toNat
  match (m popt).toNat with
  | 1 => 4
  | 3 => 4
  | 6 => 4
  | 12 => truncateSz 32 oplen
  | 17 => truncateSz 64 oplen
  | 51 => 4
  | 54 => 4
  | 67 => if empty then truncateSz bpFileSize oplen else 0
  | _ => 0

/-- The loop of `DhcpOptionsProcess` in a packet of so many bytes. -/
def optionsLoopIn (len : Nat) : Nat → Nat → Client → Mem → Option (Client × Mem)
  | 0, _, s, m => some (s, m)
  | fuel + 1, popt, s, m =>
    if optionsEnd ≤ popt then some (s, m)
    else if len ≤ popt then none
    else if m popt = 0xff then some (s, m)
    else if len < popt + 2 + valueBytes m (m bpFile = 0) popt then none
    else
      let r := dhcpOption s m popt
      optionsLoopIn len fuel (next m popt) r.1 r.2

/-- `DhcpOptionsProcess`, where the options begin with the magic number. -/
def dhcpOptionsIn (m : Mem) (len : Nat) (s : Client) : Option (Client × Mem) :=
  if be32 m bpVend = bootpVendorMagic then optionsLoopIn len bootpHdrSize optionsStart s m
  else some (s, m)

/-! ## What a packet has to be like -/

/-- Pads come in pairs, and what comes before the end mark begins before `end`. -/
inductive InStep (m : Mem) : Nat → Prop where
  | mark {popt : Nat} : m popt = 0xff → InStep m popt
  | pads {popt : Nat} : popt < optionsEnd → m popt = 0 → m (popt + 1) = 0 →
      InStep m (popt + 2) → InStep m popt
  | option {popt : Nat} : popt < optionsEnd → m popt ≠ 0 → m popt ≠ 0xff →
      InStep m (next m popt) → InStep m popt

/-- With a length behind every byte but the mark, pads too, the scan comes to the mark or to the
value of option 53 in the packet. -/
inductive TypeInside (m : Mem) (len : Nat) : Nat → Prop where
  | mark {popt : Nat} : popt < len → m popt = 0xff → TypeInside m len popt
  | type {popt : Nat} : popt + 2 < len → m popt = 53 → TypeInside m len popt
  | option {popt : Nat} : popt + 1 < len → m popt ≠ 0xff → m popt ≠ 53 →
      TypeInside m len (next m popt) → TypeInside m len popt

def named (m : Mem) (popt : Nat) : Bool :=
  m popt = 67 ∧ m (popt + 1) ≠ 0 ∧ m (popt + 2) ≠ 0

/-- In the same way the options come to the mark, or to `end`, and their values are in the
packet as far as they are read. -/
inductive OptionsInside (m : Mem) (len : Nat) : Bool → Nat → Prop where
  | limit {empty : Bool} {popt : Nat} : optionsEnd ≤ popt → OptionsInside m len empty popt
  | mark {empty : Bool} {popt : Nat} : popt < len → m popt = 0xff →
      OptionsInside m len empty popt
  | option {empty : Bool} {popt : Nat} : popt < optionsEnd → m popt ≠ 0xff →
      popt + 2 + valueBytes m empty popt ≤ len →
      OptionsInside m len (empty && !named m popt) (next m popt) → OptionsInside m len empty popt

variable {m : Mem} {popt stop : Nat} {os : List Nat}

variable {fuel : Nat}

lemma next_above (m : Mem) (popt : Nat) : popt + 2 ≤ next m popt := by
  unfold next
  omega

lemma Stream.bounds (stream : Stream m popt os stop) :
    popt ≤ stop ∧ (m popt ≠ 0xff → popt < stop) := by
  induction stream with
  | mark last => exact ⟨Nat.le_refl _, fun other => absurd last other⟩
  | pad _ _ ih => exact ⟨by omega, fun _ => by omega⟩
  | @option popt _ _ _ _ _ ih =>
    have above := next_above m popt
    exact ⟨by omega, fun _ => by omega⟩

lemma Stream.pads (stream : Stream m popt os stop) (first : m popt = 0)
    (second : m (popt + 1) = 0) : Stream m (popt + 2) os stop := by
  cases stream with
  | mark last => simp [first] at last
  | option tag _ _ => exact absurd first tag
  | pad _ tail =>
    cases tail with
    | mark last => simp [second] at last
    | pad _ tail => exact tail
    | option tag _ _ => exact absurd second tag

lemma vendorWalk_stream (stream : Stream m popt os stop) {end_ : Nat} (inside : stop ≤ end_)
    (enough : stop < popt + fuel) : vendorWalk m end_ fuel popt = (os, stop) := by
  induction stream generalizing fuel with
  | @mark popt last =>
    cases fuel with
    | zero => rfl
    | succ fuel => simp [vendorWalk, last]
  | @pad popt stop os zero rest ih =>
    have bounds := rest.bounds.1
    obtain ⟨n, rfl⟩ := Nat.exists_eq_succ_of_ne_zero (show fuel ≠ 0 by omega)
    have before : popt < end_ ∧ m popt ≠ 0xff := by
      rw [zero]
      exact ⟨by omega, by decide⟩
    rw [vendorWalk, if_pos before, if_pos zero]
    exact ih inside (by omega)
  | @option popt stop os tag more rest ih =>
    have bounds := rest.bounds.1
    have above := next_above m popt
    obtain ⟨n, rfl⟩ := Nat.exists_eq_succ_of_ne_zero (show fuel ≠ 0 by omega)
    have before : popt < end_ ∧ m popt ≠ 0xff := ⟨by omega, more⟩
    rw [vendorWalk, if_pos before, if_neg tag, ih inside (by omega)]
    simp only
    rw [if_pos (by omega)]

/-! ## The walk of `DhcpOptionsProcess` -/

lemma optionsWalk_above (m : Mem) (fuel popt : Nat) :
    (∀ o ∈ (optionsWalk m fuel popt).1, popt ≤ o) ∧ popt ≤ (optionsWalk m fuel popt).2 := by
  induction fuel generalizing popt with
  | zero => exact ⟨fun o found => (List.not_mem_nil found).elim, Nat.le_refl _⟩
  | succ fuel ih =>
    have above := next_above m popt
    obtain ⟨later, last⟩ := ih (next m popt)
    rw [optionsWalk]
    split_ifs with goes pad
    · exact ⟨fun o found => (Nat.le_trans (by omega) (later o found)), by dsimp only; omega⟩
    · refine ⟨fun o found => ?_, by dsimp only; omega⟩
      rcases List.mem_cons.mp found with rfl | found
      · exact Nat.le_refl _
      · exact Nat.le_trans (by omega) (later o found)
    · exact ⟨fun o found => (List.not_mem_nil found).elim, Nat.le_refl _⟩

lemma optionsWalk_inStep (stepping : InStep m popt) (stream : Stream m popt os stop)
    (enough : optionsEnd ≤ popt + 2 * fuel) : optionsWalk m fuel popt = (os, stop) := by
  induction stepping generalizing os fuel with
  | @mark popt last =>
    cases stream with
    | mark _ =>
      cases fuel with
      | zero => rfl
      | succ fuel => simp [optionsWalk, last]
    | pad zero _ => simp [zero] at last
    | option _ other _ => exact absurd last other
  | @pads popt low first second _ ih =>
    have rest : Stream m (popt + 2) os stop := stream.pads first second
    obtain ⟨n, rfl⟩ := Nat.exists_eq_succ_of_ne_zero (show fuel ≠ 0 by omega)
    have goes : popt < optionsEnd ∧ m popt ≠ 0xff := by
      rw [first]
      exact ⟨low, by decide⟩
    have two : next m popt = popt + 2 := by
      rw [next, second]
      rfl
    rw [optionsWalk, if_pos goes, two, ih rest (by omega)]
    simp [first]
  | @option popt low tag other _ ih =>
    have above := next_above m popt
    cases stream with
    | mark last => exact absurd last other
    | pad zero _ => exact absurd zero tag
    | option _ _ rest =>
      obtain ⟨n, rfl⟩ := Nat.exists_eq_succ_of_ne_zero (show fuel ≠ 0 by omega)
      rw [optionsWalk, if_pos ⟨low, other⟩, ih rest (by omega)]
      simp [tag]

lemma inStep_of_optionsWalk (stream : Stream m popt os stop) (enough : optionsEnd ≤ popt + 2 * fuel)
    (walk : optionsWalk m fuel popt = (os, stop)) :
    InStep m popt := by
  induction fuel generalizing popt os with
  | zero =>
    obtain ⟨-, rfl⟩ := Prod.mk.inj walk
    by_cases last : m popt = 0xff
    · exact .mark last
    · exact absurd (stream.bounds.2 last) (Nat.lt_irrefl _)
  | succ fuel ih =>
    by_cases last : m popt = 0xff
    · exact .mark last
    have far := stream.bounds.2 last
    have above := next_above m popt
    rw [optionsWalk] at walk
    by_cases low : popt < optionsEnd
    · rw [if_pos ⟨low, last⟩] at walk
      dsimp only at walk
      cases stream with
      | mark mark => exact absurd mark last
      | pad zero tail =>
        rw [if_pos zero] at walk
        have later := optionsWalk_above m fuel (next m popt)
        obtain ⟨options, stops⟩ := Prod.mk.inj walk
        rw [options, stops] at later
        cases tail with
        | mark _ => omega
        | option _ _ _ =>
          have second := later.1 (popt + 1) List.mem_cons_self
          omega
        | pad second tail =>
          have two : next m popt = popt + 2 := by
            rw [next, second]
            rfl
          rw [two] at options stops
          exact .pads low zero second (ih tail (by omega) (Prod.ext options stops))
      | option tag other tail =>
        rw [if_neg tag] at walk
        obtain ⟨options, stops⟩ := Prod.mk.inj walk
        have same := (List.cons.inj options).2
        exact .option low tag other (ih tail (by omega) (Prod.ext same stops))
    · rw [if_neg (fun goes => low goes.1)] at walk
      obtain ⟨-, rfl⟩ := Prod.mk.inj walk
      exact absurd far (Nat.lt_irrefl _)

lemma messageType_inStep (stepping : InStep m popt) (stream : Stream m popt os stop)
    (enough : optionsEnd ≤ popt + 2 * fuel) :
    messageTypeLoop m (fuel + 1) popt = some (typeOf m os) := by
  induction stepping generalizing os fuel with
  | @mark popt last =>
    cases stream with
    | mark _ => simp [messageTypeLoop, last, typeOf]
    | pad zero _ => simp [zero] at last
    | option _ other _ => exact absurd last other
  | @pads popt low first second _ ih =>
    have rest : Stream m (popt + 2) os stop := stream.pads first second
    obtain ⟨n, rfl⟩ := Nat.exists_eq_succ_of_ne_zero (show fuel ≠ 0 by omega)
    have found := ih rest (show optionsEnd ≤ popt + 2 + 2 * n by omega)
    rw [messageTypeLoop]
    simpa [first, second] using found
  | @option popt low tag other _ ih =>
    have above := next_above m popt
    cases stream with
    | mark last => exact absurd last other
    | pad zero _ => exact absurd zero tag
    | @option _ _ os _ _ rest =>
      obtain ⟨n, rfl⟩ := Nat.exists_eq_succ_of_ne_zero (show fuel ≠ 0 by omega)
      have found := ih rest (show optionsEnd ≤ next m popt + 2 * n by omega)
      rw [messageTypeLoop, if_neg other]
      by_cases type : m popt = 53
      · rw [if_pos type]
        simp [typeOf, type]
      · rw [if_neg type]
        simpa [typeOf, type, next] using found

/-! ## What is applied -/

lemma dhcpOption_behind (s : Client) (m : Mem) (popt : Nat) {i : Nat} (behind : bpVend ≤ i) :
    (dhcpOption s m popt).2 i = m i := by
  unfold dhcpOption
  dsimp only
  split
  case h_8 =>
    split_ifs with free
    · have short : truncateSz bpFileSize (m (popt + 1)).toNat < bpFileSize := by
        unfold truncateSz
        split_ifs
        · decide
        · omega
      have place : bpVend = bpFile + bpFileSize := rfl
      dsimp only
      rw [place] at behind
      rw [store_other _ _ (by omega), blit_after _ _ (by rw [slice_length]; omega)]
    · rfl
  all_goals rfl

lemma dhcpOption_pad (s : Client) {m : Mem} {popt : Nat} (pad : m popt = 0) :
    dhcpOption s m popt = (s, m) := by
  simp [dhcpOption, pad]

lemma optionsLoop_walk {m m' : Mem} (same : ∀ i, bpVend ≤ i → m' i = m i) (fuel : Nat)
    {popt : Nat} (low : bpVend ≤ popt) (s : Client) :
    dhcpOptionsLoop fuel popt s m' = applied (optionsWalk m fuel popt).1 s m' := by
  induction fuel generalizing popt s m' with
  | zero => rfl
  | succ fuel ih =>
    have above := next_above m popt
    rw [dhcpOptionsLoop, optionsWalk, same popt low, same (popt + 1) (by omega),
      show bpVend + 4 + bootpHdrSize = optionsEnd from rfl]
    have kept : ∀ i, bpVend ≤ i → (dhcpOption s m' popt).2 i = m i := fun i behind =>
      (dhcpOption_behind s m' popt behind).trans (same i behind)
    have rest := ih kept (show bpVend ≤ next m popt by omega) (dhcpOption s m' popt).1
    by_cases goes : popt < optionsEnd ∧ m popt ≠ 0xff
    · rw [if_pos goes, if_pos goes]
      dsimp only
      rw [show popt + (m (popt + 1)).toNat + 2 = next m popt from rfl, rest]
      by_cases pad : m popt = 0
      · rw [if_pos pad, dhcpOption_pad s ((same popt low).trans pad)]
      · rw [if_neg pad]
        rfl
    · rw [if_neg goes, if_neg goes]
      rfl

/-! ## Reads inside the packet -/

variable {len : Nat}

lemma messageTypeIn_iff (m : Mem) (len : Nat) {popt : Nat} (enough : len ≤ popt + 2 * fuel) :
    messageTypeIn m len fuel popt ≠ none ↔ TypeInside m len popt := by
  induction fuel generalizing popt with
  | zero =>
    refine ⟨fun found => absurd rfl found, fun inside => ?_⟩
    have low : popt < len := by cases inside <;> omega
    omega
  | succ fuel ih =>
    have above := next_above m popt
    rw [messageTypeIn]
    split_ifs with behind last type cut cut
    · refine ⟨fun found => absurd rfl found, fun inside => ?_⟩
      have low : popt < len := by cases inside <;> omega
      omega
    · exact ⟨fun _ => .mark (Nat.lt_of_not_le behind) last, fun _ => Option.some_ne_none _⟩
    · refine ⟨fun found => absurd rfl found, fun inside => ?_⟩
      cases inside with
      | mark _ mark => exact absurd mark last
      | type low _ => omega
      | option _ _ other _ => exact absurd type other
    · exact ⟨fun _ => .type (Nat.lt_of_not_le cut) type, fun _ => Option.some_ne_none _⟩
    · refine ⟨fun found => absurd rfl found, fun inside => ?_⟩
      cases inside with
      | mark _ mark => exact absurd mark last
      | type _ is => exact absurd is type
      | option low _ _ _ => omega
    · rw [ih (by omega)]
      constructor
      · exact .option (Nat.lt_of_not_le cut) last type
      · intro inside
        cases inside with
        | mark _ mark => exact absurd mark last
        | type _ is => exact absurd is type
        | option _ _ _ rest => exact rest

lemma messageTypeIn_eq {more popt : Nat} {r : Option Nat} (least : fuel ≤ more)
    (found : messageTypeIn m len fuel popt = some r) : messageTypeLoop m more popt = some r := by
  induction fuel generalizing more popt with
  | zero => cases found
  | succ fuel ih =>
    obtain ⟨n, rfl⟩ := Nat.exists_eq_succ_of_ne_zero (show more ≠ 0 by omega)
    rw [messageTypeIn] at found
    rw [messageTypeLoop]
    split_ifs at found with _ last type
    · rw [if_pos last, found]
    · rw [if_neg last, if_pos type, found]
    · rw [if_neg last, if_neg type]
      exact ih (by omega) found

lemma truncateSz_pos (n : Nat) : 0 < truncateSz bpFileSize n ↔ 0 < n := by
  unfold truncateSz bpFileSize
  split_ifs
  · omega
  · exact Iff.rfl

lemma dhcpOption_other (s : Client) {m : Mem} {popt : Nat} (other : m popt ≠ 67) :
    (dhcpOption s m popt).2 = m := by
  have tag : (m popt).toNat ≠ 67 := fun same => other (UInt8.toNat_inj.mp same)
  unfold dhcpOption
  split
  case h_8 is => exact absurd is tag
  all_goals rfl

lemma dhcpOption_named (s : Client) {m : Mem} {popt : Nat} (tag : m popt = 67)
    (free : m bpFile = 0) (some_ : m (popt + 1) ≠ 0) :
    (dhcpOption s m popt).2 bpFile = m (popt + 2) := by
  have long : 0 < (m (popt + 1)).toNat :=
    Nat.pos_of_ne_zero fun zero => some_ (UInt8.toNat_inj.mp zero)
  have size := (truncateSz_pos _).mpr long
  have number : (m popt).toNat = 67 := by
    rw [tag]
    rfl
  simp only [dhcpOption, number]
  rw [if_pos ⟨free, size⟩]
  dsimp only
  rw [store_other _ _ (by omega)]
  have first := blit_inside m (a := bpFile) (j := 0) (slice m (popt + 2) _)
    (by rw [slice_length]; exact size)
  rw [slice_get, add_zero] at first
  exact first

lemma dhcpOption_unnamed (s : Client) {m : Mem} {popt : Nat}
    (kept : m bpFile ≠ 0 ∨ m (popt + 1) = 0) : (dhcpOption s m popt).2 = m := by
  unfold dhcpOption
  split
  case h_8 =>
    rw [if_neg]
    rintro ⟨free, size⟩
    rcases kept with full | zero
    · exact full free
    · rw [zero] at size
      exact absurd ((truncateSz_pos _).mp size) (Nat.lt_irrefl 0)
  all_goals rfl

lemma dhcpOption_file (s : Client) (m : Mem) (popt : Nat) :
    decide ((dhcpOption s m popt).2 bpFile = 0) = (decide (m bpFile = 0) && !named m popt) := by
  by_cases tag : m popt = 67
  · by_cases free : m bpFile = 0
    · by_cases some_ : m (popt + 1) = 0
      · rw [dhcpOption_unnamed s (.inr some_)]
        simp [named, some_]
      · rw [dhcpOption_named s tag free some_]
        simp [named, tag, free, some_]
    · rw [dhcpOption_unnamed s (.inl free)]
      simp [free]
  · rw [dhcpOption_other s tag]
    simp [named, tag]

lemma optionsLoopIn_iff {m m' : Mem} {popt : Nat} (same : ∀ i, bpVend ≤ i → m' i = m i)
    (low : bpVend ≤ popt) (s : Client) (enough : optionsEnd ≤ popt + 2 * fuel) :
    optionsLoopIn len fuel popt s m' ≠ none ↔ OptionsInside m len (m' bpFile = 0) popt := by
  induction fuel generalizing popt s m' with
  | zero => exact ⟨fun _ => .limit enough, fun _ => Option.some_ne_none _⟩
  | succ fuel ih =>
    have above := next_above m popt
    have tag := same popt low
    have oplen := same (popt + 1) (by omega)
    have bytes : valueBytes m' (m' bpFile = 0) popt = valueBytes m (m' bpFile = 0) popt := by
      rw [valueBytes, valueBytes, tag, oplen]
    have brings : named m' popt = named m popt := by
      rw [named, named, tag, oplen, same (popt + 2) (by omega)]
    rw [optionsLoopIn]
    split_ifs with limit behind last cut
    · exact ⟨fun _ => .limit limit, fun _ => Option.some_ne_none _⟩
    · refine ⟨fun found => absurd rfl found, fun inside => ?_⟩
      cases inside with
      | limit far => exact absurd far limit
      | mark here _ => omega
      | option _ _ room _ => omega
    · rw [tag] at last
      exact ⟨fun _ => .mark (Nat.lt_of_not_le behind) last, fun _ => Option.some_ne_none _⟩
    · rw [bytes] at cut
      rw [tag] at last
      refine ⟨fun found => absurd rfl found, fun inside => ?_⟩
      cases inside with
      | limit far => exact absurd far limit
      | mark _ mark => exact absurd mark last
      | option _ _ room _ => omega
    · rw [bytes] at cut
      rw [tag] at last
      have kept : ∀ i, bpVend ≤ i → (dhcpOption s m' popt).2 i = m i := fun i far =>
        (dhcpOption_behind s m' popt far).trans (same i far)
      have rest := ih kept (show bpVend ≤ next m popt by omega) (dhcpOption s m' popt).1 (by omega)
      have jump : next m' popt = next m popt := by rw [next, next, oplen]
      rw [jump, rest, dhcpOption_file, brings]
      constructor
      · exact .option (Nat.lt_of_not_le limit) last (Nat.le_of_not_lt cut)
      · intro inside
        cases inside with
        | limit far => exact absurd far limit
        | mark _ mark => exact absurd mark last
        | option _ _ _ rest => exact rest

lemma optionsLoopIn_eq {popt : Nat} {s : Client} {r : Client × Mem}
    (found : optionsLoopIn len fuel popt s m = some r) : dhcpOptionsLoop fuel popt s m = r := by
  induction fuel generalizing popt s m with
  | zero => exact Option.some.inj found
  | succ fuel ih =>
    rw [optionsLoopIn] at found
    rw [dhcpOptionsLoop, show bpVend + 4 + bootpHdrSize = optionsEnd from rfl]
    split_ifs at found with limit _ last
    · rw [if_neg (fun goes => absurd goes.1 (Nat.not_lt_of_le limit))]
      exact Option.some.inj found
    · rw [if_neg (fun goes => goes.2 last)]
      exact Option.some.inj found
    · rw [if_pos ⟨Nat.lt_of_not_le limit, last⟩]
      exact ih found

/-! ## Packets -/

/-- The functions agree about the options of a stream, and about where it ends.
`BootpVendorProcess` is given the length of the packet for that of the options. -/
structure Agree (s : Client) (m : Mem) (len : Nat) (os : List Nat) (stop : Nat) : Prop where
  type : dhcpMessageType m = some (typeOf m os)
  walk : optionsWalk m bootpHdrSize optionsStart = (os, stop)
  vendor : vendorWalk m (optionsStart + len) len optionsStart = (os, stop)
  options : dhcpOptionsProcess s m = applied os s m

/-- They agree about every stream in a packet of so many bytes, and read nothing behind it. -/
structure Walks (s : Client) (m : Mem) (len : Nat) : Prop where
  agree : be32 m bpVend = bootpVendorMagic →
    ∀ os stop, Stream m optionsStart os stop → stop < len → Agree s m len os stop
  type_inside : dhcpMessageTypeIn m len ≠ none
  options_inside : dhcpOptionsIn m len s ≠ none

lemma agree_iff (s : Client) (magic : be32 m bpVend = bootpVendorMagic)
    (stream : Stream m optionsStart os stop) (inside : stop < len) :
    Agree s m len os stop ↔ InStep m optionsStart := by
  have enough : optionsEnd ≤ optionsStart + 2 * bootpHdrSize := by decide
  constructor
  · exact fun agree => inStep_of_optionsWalk stream enough agree.walk
  · intro stepping
    have walk := optionsWalk_inStep stepping stream enough
    constructor
    · have fuel : 2 ^ 31 = (2 ^ 31 - 1) + 1 := rfl
      rw [dhcpMessageType, if_neg (not_not.mpr magic), fuel]
      exact messageType_inStep stepping stream (by decide)
    · exact walk
    · exact vendorWalk_stream stream (by omega) (by omega)
    · rw [dhcpOptionsProcess, if_pos magic,
        optionsLoop_walk (fun _ _ => rfl) bootpHdrSize (Nat.le_add_right bpVend 4)]
      rw [show bpVend + 4 = optionsStart from rfl, walk]

lemma dhcpMessageTypeIn_iff (m : Mem) (len : Nat) :
    dhcpMessageTypeIn m len ≠ none ↔ optionsStart ≤ len ∧
      (be32 m bpVend = bootpVendorMagic → TypeInside m len optionsStart) := by
  rw [dhcpMessageTypeIn, Guarded.check_ne_none, Nat.not_lt]
  refine and_congr_right fun long => ?_
  split_ifs with other
  · exact ⟨fun _ magic => absurd magic other, fun _ => Option.some_ne_none _⟩
  · rw [messageTypeIn_iff m len (by omega)]
    exact ⟨fun inside _ => inside, fun inside => inside (not_not.mp other)⟩

lemma dhcpOptionsIn_iff (m : Mem) (len : Nat) (s : Client) :
    dhcpOptionsIn m len s ≠ none ↔
      (be32 m bpVend = bootpVendorMagic → OptionsInside m len (m bpFile = 0) optionsStart) := by
  have enough : optionsEnd ≤ optionsStart + 2 * bootpHdrSize := by decide
  have start : bpVend ≤ optionsStart := Nat.le_add_right bpVend 4
  rw [dhcpOptionsIn]
  split_ifs with magic
  · rw [optionsLoopIn_iff (fun _ _ => rfl) start s enough]
    exact ⟨fun inside _ => inside, fun inside => inside magic⟩
  · exact ⟨fun _ is => absurd is magic, fun _ => Option.some_ne_none _⟩

lemma dhcpMessageTypeIn_eq (short : len ≤ 2 ^ 31) {r : Option Nat}
    (found : dhcpMessageTypeIn m len = some r) : dhcpMessageType m = some r := by
  rw [dhcpMessageTypeIn] at found
  rw [dhcpMessageType]
  split_ifs at found with _ other
  · rw [if_pos other, found]
  · rw [if_neg other]
    exact messageTypeIn_eq short found

lemma dhcpOptionsIn_eq {s : Client} {r : Client × Mem} (found : dhcpOptionsIn m len s = some r) :
    dhcpOptionsProcess s m = r := by
  rw [dhcpOptionsIn] at found
  rw [dhcpOptionsProcess]
  split_ifs at found with magic
  · rw [if_pos magic]
    exact optionsLoopIn_eq found
  · rw [if_neg magic]
    exact Option.some.inj found

/-- The walks are right exactly for packets that hold the magic number, whose pads come in pairs
if the options are a stream, and in which the end mark is found with a length behind every pad. -/
theorem walks_iff (s : Client) (m : Mem) (len : Nat) :
    Walks s m len ↔ optionsStart ≤ len ∧ (be32 m bpVend = bootpVendorMagic →
      TypeInside m len optionsStart ∧ OptionsInside m len (m bpFile = 0) optionsStart ∧
      ((∃ os stop, Stream m optionsStart os stop ∧ stop < len) → InStep m optionsStart)) := by
  constructor
  · rintro ⟨agree, type_inside, options_inside⟩
    obtain ⟨long, type⟩ := (dhcpMessageTypeIn_iff m len).mp type_inside
    have inside := (dhcpOptionsIn_iff m len s).mp options_inside
    refine ⟨long, fun magic => ⟨type magic, inside magic, ?_⟩⟩
    rintro ⟨os, stop, stream, low⟩
    exact (agree_iff s magic stream low).mp (agree magic os stop stream low)
  · rintro ⟨long, right⟩
    constructor
    · intro magic os stop stream low
      exact (agree_iff s magic stream low).mpr ((right magic).2.2 ⟨os, stop, stream, low⟩)
    · exact (dhcpMessageTypeIn_iff m len).mpr ⟨long, fun magic => (right magic).1⟩
    · exact (dhcpOptionsIn_iff m len s).mpr fun magic => (right magic).2.1

def padded : Mem := fun i =>
  match i - bpVend with
  | 0 => 99
  | 1 => 130
  | 2 => 83
  | 3 => 99
  | 5 => 53
  | 6 => 1
  | 7 => 5
  | 8 => 255
  | _ => 0

def waiting : Client :=
  ⟨.selecting, 1, 1, fun _ => 2, 0, 0, [], 0, 0, 0, [], [], 0, 0, [], .goesOn, none, 1⟩

/-- The scan takes the 53 for the length of the pad and misses the message type. -/
theorem pad_desynchronizes : ¬ Walks waiting padded bootpHdrSize := by
  intro walks
  have oplen : (padded (optionsStart + 1 + 1)).toNat = 1 := by decide
  have after : next padded (optionsStart + 1) = optionsStart + 4 := by rw [next, oplen]
  have stream : Stream padded optionsStart [optionsStart + 1] (optionsStart + 4) := by
    refine .pad (by decide) (.option (by decide) (by decide) ?_)
    rw [after]
    exact .mark (by decide)
  have magic : be32 padded bpVend = bootpVendorMagic := by decide
  have inside : optionsStart + 4 < bootpHdrSize := by
    unfold optionsStart bpVend bootpHdrSize
    omega
  cases (agree_iff waiting magic stream inside).mp (walks.agree magic _ _ stream inside) with
  | mark last => exact absurd last (by decide)
  | pads _ _ second _ => exact absurd second (by decide)
  | option _ tag _ _ => exact absurd rfl tag

end DhcpOptions
