import UBoot.Usb.ConfigBlock

/-!
# Where a configuration is stored (common/usb.c)

`usb_parse_config` once more, for its stores alone. A read behind the block finds what the stack has
there; the parser stops at an index behind a table, and at a copy longer than its structure.
-/

namespace ConfigStores

open ParseConfig

def newInterface (buffer : Bytes) (w : Walk) : Except Fault Walk :=
  let ifno := (w.config noOfIf).toNat
  if usbMaxInterfaces ≤ ifno then .error .table
  else if interfaceSize < len buffer w.index then .error .copy
  else
    let config := withInterface buffer w.config ifno w.index
    .ok { w with config, ifno, currIfNum := (config (ifDesc ifno + 2)).toNat }

def newEndpoint (buffer : Bytes) (w : Walk) : Except Fault Walk :=
  if 0 ≤ w.ifno ∧ w.ifno < usbMaxInterfaces then
    let epno := (w.config (ifDesc w.ifno.toNat + 9)).toNat
    if usbMaxEndpoints ≤ epno then .error .table
    else if endpointSize < len buffer w.index then .error .copy
    else .ok { w with config := withEndpoint buffer w.config w.ifno.toNat epno w.index }
  else .error .table

def body (buffer : Bytes) (w : Walk) : Except Fault (Option Walk) :=
  if IsInterface buffer w.index then
    let found := if (number buffer w.index : Int) ≠ w.currIfNum then newInterface buffer w
      else alternateSetting w
    found.map fun w => some (w.forward buffer)
  else if IsEndpoint buffer w.index then
    (newEndpoint buffer w).map fun w => some (w.forward buffer)
  else if len buffer w.index = 0 then .ok none
  else .ok (some (w.forward buffer))

/-- The loop: `dev->config` in the end, `none` when the fuel is used up. -/
def parseLoop (buffer : Bytes) : (fuel : Nat) → Walk → Option (Except Fault Bytes)
  | 0, _ => none
  | fuel + 1, w =>
    if w.index + 1 < wTotalLength w.config then
      match body buffer w with
      | .error fault => some (.error fault)
      | .ok none => some (.ok w.config)
      | .ok (some w) => parseLoop buffer fuel w
    else some (.ok w.config)

/-- `usb_parse_config`: what it returns, and `dev->config`. Any `bLength` is less than the size of
the configuration. -/
def usbParseConfig (fuel : Nat) (buffer config : Bytes) : Option (Except Fault (Int × Bytes)) :=
  if buffer 1 ≠ usbDtConfig then some (.ok (-1, config))
  else (parseLoop buffer fuel (firstWalk buffer config)).map fun r =>
    r.map fun config => (1, config)

/-- How many interfaces there are, how many endpoints the last one has, and its number. -/
structure Counts where
  interfaces : Nat
  endpoints : Nat
  current : Int

def count (buffer start : Bytes) (c : Counts) (p : Nat) : Option Counts :=
  if IsInterface buffer p then
    if (number buffer p : Int) = c.current then some c
    else if c.interfaces < usbMaxInterfaces ∧ len buffer p ≤ interfaceSize then
      some ⟨c.interfaces + 1, 0, kept buffer start c.interfaces p⟩
    else none
  else if IsEndpoint buffer p then
    if 0 < c.interfaces ∧ c.endpoints < usbMaxEndpoints ∧ len buffer p ≤ endpointSize then
      some ⟨c.interfaces, c.endpoints + 1, c.current⟩
    else none
  else some c

def countAll (buffer start : Bytes) (c : Counts) (ps : List Nat) : Option Counts :=
  ps.foldlM (count buffer start) c

/-- Behind a configuration descriptor the descriptors come to an end, and there is room for them:
eight interfaces, 16 endpoints in all settings of an interface, and 172 and ten bytes for their
descriptors. -/
def StoresFit (buffer config : Bytes) : Prop :=
  buffer 1 = usbDtConfig → ∃ ps c,
    Descriptors buffer (wTotalLength (firstConfig buffer config))
      (len (firstConfig buffer config) 0) ps ∧
    countAll buffer (firstConfig buffer config) ⟨0, 0, -1⟩ ps = some c

structure Sim (start : Bytes) (w : Walk) (c : Counts) : Prop where
  few : c.interfaces ≤ usbMaxInterfaces
  least : c.endpoints ≤ usbMaxEndpoints
  count : (w.config noOfIf).toNat = c.interfaces
  ifno : w.ifno = c.interfaces - 1
  current : w.currIfNum = c.current
  unset : c.interfaces = 0 → c.current = -1
  endpoints : ∀ k, c.interfaces = k + 1 → (w.config (ifDesc k + 9)).toNat = c.endpoints
  header : ∀ a < 9, w.config a = start a
  free : ∀ a, ifDesc c.interfaces ≤ a → w.config a = start a

section
variable {buffer start : Bytes} {w : Walk} {c : Counts} (sim : Sim start w c)
include sim

lemma newInterface_sim (few : c.interfaces < usbMaxInterfaces)
    (fits : len buffer w.index ≤ interfaceSize) :
    ∃ w', newInterface buffer w = .ok w' ∧ w'.index = w.index ∧
      Sim start w' ⟨c.interfaces + 1, 0, kept buffer start c.interfaces w.index⟩ := by
  have place : 9 < ifDesc c.interfaces := by unfold ifDesc; omega
  have next : ifDesc (c.interfaces + 1) = ifDesc c.interfaces + 172 := by unfold ifDesc; omega
  have number_eq := withInterface_number buffer w.index sim.free
  have made : newInterface buffer w = .ok ⟨withInterface buffer w.config c.interfaces w.index,
      w.index, c.interfaces, kept buffer start c.interfaces w.index⟩ := by
    rw [newInterface, sim.count]
    dsimp only
    rw [if_neg (Nat.not_le.mpr few), if_neg (Nat.not_lt.mpr fits), number_eq]
  have short : len buffer w.index ≤ 172 := fits
  refine ⟨_, made, rfl, few, Nat.zero_le _, ?count, ?ifno, rfl,
    fun none => absurd none (Nat.succ_ne_zero _), ?endpoints, ?header, ?free⟩
  case count =>
    have less : c.interfaces + 1 < 256 := Nat.lt_of_le_of_lt few (by decide)
    dsimp only
    rw [withInterface_noOfIf, UInt8.toNat_add, sim.count]
    exact Nat.mod_eq_of_lt less
  case ifno =>
    push_cast
    omega
  case endpoints =>
    rintro k ⟨⟩
    dsimp only
    rw [withInterface_noOfEp]
    rfl
  case header =>
    intro a low
    dsimp only
    rw [withInterface_outside _ _ _ _ (by unfold noOfIf; omega) (by omega), sim.header a low]
  case free =>
    intro a low
    dsimp only at low ⊢
    rw [withInterface_outside _ _ _ _ (by unfold noOfIf; omega) (by omega), sim.free a (by omega)]

lemma newInterface_error (full : ¬ (c.interfaces < usbMaxInterfaces ∧
    len buffer w.index ≤ interfaceSize)) : ∃ fault, newInterface buffer w = .error fault := by
  unfold newInterface
  rw [sim.count]
  by_cases many : usbMaxInterfaces ≤ c.interfaces
  · exact ⟨_, if_pos many⟩
  · rw [if_neg many, if_pos (by omega)]
    exact ⟨_, rfl⟩

lemma Sim.last {k : Nat} (there : c.interfaces = k + 1) :
    w.ifno.toNat = k ∧ 0 ≤ w.ifno ∧ w.ifno < usbMaxInterfaces := by
  have few := sim.few
  have ifno := sim.ifno
  rw [there] at few ifno
  push_cast at ifno
  unfold usbMaxInterfaces at few ⊢
  omega

lemma alternateSetting_sim {k : Nat} (there : c.interfaces = k + 1) :
    ∃ w', alternateSetting w = .ok w' ∧ w'.index = w.index ∧ Sim start w' c := by
  obtain ⟨last, inside⟩ := sim.last there
  have other {a : Nat} (apart : a ≠ ifDesc k + 10) :
      Function.update w.config (ifDesc k + 10) (w.config (ifDesc k + 10) + 1) a = w.config a :=
    Function.update_of_ne apart _ _
  refine ⟨_, if_pos inside, rfl, ?_⟩
  rw [last]
  refine ⟨sim.few, sim.least, ?count, sim.ifno, sim.current, sim.unset, ?endpoints, ?header, ?free⟩
  case count =>
    dsimp only
    rw [other (by unfold noOfIf ifDesc; omega), sim.count]
  case endpoints =>
    intro k' there'
    obtain rfl : k = k' := by omega
    dsimp only
    rw [other (by omega), sim.endpoints k there]
  case header =>
    intro a low
    dsimp only
    rw [other (by unfold ifDesc; omega), sim.header a low]
  case free =>
    intro a low
    rw [there] at low
    dsimp only
    rw [other (by unfold ifDesc at low ⊢; omega), sim.free a (by rw [there]; exact low)]

lemma newEndpoint_sim {k : Nat} (there : c.interfaces = k + 1) (few : c.endpoints < usbMaxEndpoints)
    (fits : len buffer w.index ≤ endpointSize) :
    ∃ w', newEndpoint buffer w = .ok w' ∧ w'.index = w.index ∧
      Sim start w' ⟨c.interfaces, c.endpoints + 1, c.current⟩ := by
  obtain ⟨last, inside⟩ := sim.last there
  have made : newEndpoint buffer w = .ok { w with
      config := withEndpoint buffer w.config k c.endpoints w.index } := by
    rw [newEndpoint, if_pos inside, last]
    rw [sim.endpoints k there, if_neg (Nat.not_le.mpr few), if_neg (Nat.not_lt.mpr fits)]
  have short : len buffer w.index ≤ 10 := fits
  have inner : ifDesc k + 9 < epDesc k c.endpoints := by unfold epDesc; omega
  have outer : epDesc k c.endpoints + 10 ≤ ifDesc (k + 1) := by
    unfold usbMaxEndpoints at few
    unfold epDesc ifDesc
    omega
  have low {a : Nat} (before : a < ifDesc 0) :
      withEndpoint buffer w.config k c.endpoints w.index a = w.config a := by
    unfold ifDesc at before inner
    exact withEndpoint_outside _ _ _ _ _ (by unfold ifDesc; omega) (.inl (by omega))
  refine ⟨_, made, rfl, sim.few, few, ?count, sim.ifno, sim.current, sim.unset, ?endpoints, ?header,
    ?free⟩
  case count =>
    dsimp only
    rw [low (by decide), sim.count]
  case endpoints =>
    intro k' there'
    obtain rfl : k = k' := by
      dsimp only at there'
      omega
    have less : c.endpoints + 1 < 256 := Nat.lt_of_le_of_lt few (by decide)
    dsimp only
    rw [withEndpoint_noOfEp, UInt8.toNat_add, sim.endpoints k there]
    exact Nat.mod_eq_of_lt less
  case header =>
    intro a close
    dsimp only
    rw [low (Nat.lt_of_lt_of_le close (by decide)), sim.header a close]
  case free =>
    intro a high
    dsimp only at high ⊢
    rw [there] at high
    rw [withEndpoint_outside _ _ _ _ _ (by omega) (.inr (by omega)),
      sim.free a (by rw [there]; exact high)]

lemma newEndpoint_error (full : ¬ (0 < c.interfaces ∧ c.endpoints < usbMaxEndpoints ∧
    len buffer w.index ≤ endpointSize)) : ∃ fault, newEndpoint buffer w = .error fault := by
  unfold newEndpoint
  cases interfaces : c.interfaces with
  | zero =>
    have ifno := sim.ifno
    rw [interfaces] at ifno
    rw [if_neg (by rw [ifno]; decide)]
    exact ⟨_, rfl⟩
  | succ k =>
    obtain ⟨last, inside⟩ := sim.last interfaces
    rw [if_pos inside, last]
    rw [sim.endpoints k interfaces]
    by_cases many : usbMaxEndpoints ≤ c.endpoints
    · exact ⟨_, if_pos many⟩
    · rw [if_neg many, if_pos (by omega)]
      exact ⟨_, rfl⟩

end
variable {buffer start : Bytes} {c : Counts}

/-- What the body of the loop does when there is room for the descriptor. -/
inductive Counted (buffer start : Bytes) (w : Walk) (c : Counts) :
    Except Fault (Option Walk) → Prop where
  | stop : Stops buffer w.index → Counted buffer start w c (.ok none)
  | next (w' : Walk) : ¬ Stops buffer w.index → w'.index = w.index + len buffer w.index →
      Sim start w' c → Counted buffer start w c (.ok (some w'))

lemma Sim.forward {w : Walk} (sim : Sim start w c) :
    Sim start (w.forward buffer) c :=
  ⟨sim.few, sim.least, sim.count, sim.ifno, sim.current, sim.unset, sim.endpoints, sim.header,
    sim.free⟩

lemma Sim.total {w : Walk} (sim : Sim start w c) :
    wTotalLength w.config = wTotalLength start := by
  rw [wTotalLength, wTotalLength, sim.header 2 (by decide), sim.header 3 (by decide)]

section
variable {buffer start : Bytes} {w : Walk} {c : Counts} (sim : Sim start w c)
include sim

lemma body_error (full : count buffer start c w.index = none) :
    ∃ fault, body buffer w = .error fault := by
  have error_map {r : Except Fault Walk} (error : ∃ fault, r = .error fault) :
      ∃ fault, r.map (fun w => some (w.forward buffer)) = .error fault := by
    obtain ⟨fault, rfl⟩ := error
    exact ⟨fault, rfl⟩
  unfold body
  rw [count] at full
  by_cases interface : IsInterface buffer w.index
  · rw [if_pos interface] at full ⊢
    rw [sim.current]
    by_cases again : (number buffer w.index : Int) = c.current
    · rw [if_pos again] at full
      cases full
    rw [if_neg again] at full
    rw [if_pos again]
    refine error_map (newInterface_error sim fun room => ?_)
    rw [if_pos room] at full
    cases full
  · rw [if_neg interface] at full ⊢
    by_cases endpoint : IsEndpoint buffer w.index
    · rw [if_pos endpoint] at full ⊢
      refine error_map (newEndpoint_error sim fun room => ?_)
      rw [if_pos room] at full
      cases full
    · rw [if_neg endpoint] at full
      cases full

lemma body_counted {c' : Counts} (room : count buffer start c w.index = some c') :
    Counted buffer start w c' (body buffer w) := by
  have next_map {r : Except Fault Walk} (goes_on : ¬ Stops buffer w.index)
      (done : ∃ w', r = .ok w' ∧ w'.index = w.index ∧ Sim start w' c') :
      Counted buffer start w c' (r.map fun w => some (w.forward buffer)) := by
    obtain ⟨w', rfl, index, sim'⟩ := done
    refine .next _ goes_on ?_ sim'.forward
    rw [Walk.forward, index]
    rfl
  unfold body
  rw [count] at room
  by_cases interface : IsInterface buffer w.index
  · rw [if_pos interface] at room ⊢
    rw [sim.current]
    refine next_map (fun stops => stops.1 interface) ?_
    by_cases again : (number buffer w.index : Int) = c.current
    · rw [if_pos again] at room
      cases room
      rw [if_neg (not_not.mpr again)]
      cases interfaces : c.interfaces with
      | zero =>
        rw [sim.unset interfaces] at again
        omega
      | succ k => exact alternateSetting_sim sim interfaces
    · rw [if_neg again] at room
      rw [if_pos again]
      by_cases fits : c.interfaces < usbMaxInterfaces ∧ len buffer w.index ≤ interfaceSize
      · rw [if_pos fits] at room
        cases room
        exact newInterface_sim sim fits.1 fits.2
      · rw [if_neg fits] at room
        cases room
  · rw [if_neg interface] at room ⊢
    by_cases endpoint : IsEndpoint buffer w.index
    · rw [if_pos endpoint] at room ⊢
      refine next_map (fun stops => stops.2.1 endpoint) ?_
      by_cases fits : 0 < c.interfaces ∧ c.endpoints < usbMaxEndpoints ∧
          len buffer w.index ≤ endpointSize
      · rw [if_pos fits] at room
        cases room
        obtain ⟨k, there⟩ := Nat.exists_eq_succ_of_ne_zero (Nat.ne_of_gt fits.1)
        exact newEndpoint_sim sim there fits.2.1 fits.2.2
      · rw [if_neg fits] at room
        cases room
    · rw [if_neg endpoint] at room ⊢
      cases room
      by_cases zero : len buffer w.index = 0
      · rw [if_pos zero]
        exact .stop ⟨interface, endpoint, zero⟩
      · rw [if_neg zero]
        exact .next _ (fun stops => zero stops.2.2) rfl sim.forward

end

variable {config : Bytes}

lemma countAll_cons {c' : Counts} {p : Nat} {ps : List Nat}
    (first : count buffer start c p = some c') :
    countAll buffer start c (p :: ps) = countAll buffer start c' ps := by
  rw [countAll, List.foldlM_cons, first]
  rfl

lemma parseLoop_counted {fuel : Nat} {w : Walk} (sim : Sim start w c)
    (run : parseLoop buffer fuel w = some (.ok config)) :
    ∃ ps c', Descriptors buffer (wTotalLength start) w.index ps ∧
      countAll buffer start c ps = some c' := by
  induction fuel generalizing w c with
  | zero => cases run
  | succ fuel ih =>
    rw [parseLoop, sim.total] at run
    by_cases more : w.index + 1 < wTotalLength start
    case neg => exact ⟨[], c, .done (Nat.not_lt.mp more), rfl⟩
    rw [if_pos more] at run
    cases room : count buffer start c w.index with
    | none =>
      obtain ⟨fault, error⟩ := body_error sim room
      rw [error] at run
      cases run
    | some c' =>
      have counted := body_counted sim room
      generalize body buffer w = r at counted run
      cases counted with
      | stop stops =>
        refine ⟨[w.index], c', .stop more stops.1 stops.2.1 stops.2.2, ?_⟩
        rw [countAll_cons room]
        rfl
      | next w' goes_on index sim' =>
        obtain ⟨ps, c'', walk, all⟩ := ih sim' run
        rw [index] at walk
        have long : len buffer w.index ≠ 0 := by
          intro zero
          rw [zero] at walk
          cases walk with
          | done ended => omega
          | stop _ interface endpoint => exact goes_on ⟨interface, endpoint, zero⟩
          | next _ long => exact long zero
        exact ⟨w.index :: ps, c'', .next more long walk, (countAll_cons room).trans all⟩

lemma parseLoop_ends {buffer start : Bytes} {index fuel : Nat} {c c' : Counts} {ps : List Nat}
    (walk : Descriptors buffer (wTotalLength start) index ps)
    (room : countAll buffer start c ps = some c') {w : Walk} (sim : Sim start w c)
    (at_index : w.index = index) (enough : ps.length < fuel) :
    ∃ config, parseLoop buffer fuel w = some (.ok config) := by
  obtain ⟨fuel, rfl⟩ := Nat.exists_eq_succ_of_ne_zero (Nat.ne_zero_of_lt enough)
  induction walk generalizing fuel w c with
  | done ended =>
    refine ⟨w.config, ?_⟩
    rw [parseLoop, sim.total, at_index, if_neg (Nat.not_lt.mpr ended)]
  | @stop index more interface endpoint zero =>
    subst at_index
    have other : count buffer start c w.index = some c := by
      rw [count, if_neg interface, if_neg endpoint]
    have counted := body_counted sim other
    refine ⟨w.config, ?_⟩
    rw [parseLoop, sim.total, if_pos more]
    generalize body buffer w = r at counted ⊢
    cases counted with
    | stop => rfl
    | next w' goes_on => exact absurd ⟨interface, endpoint, zero⟩ goes_on
  | @next index ps more long walk ih =>
    subst at_index
    cases first : count buffer start c w.index with
    | none =>
      rw [countAll, List.foldlM_cons, first] at room
      cases room
    | some c1 =>
      rw [countAll_cons first] at room
      have counted := body_counted sim first
      rw [parseLoop, sim.total, if_pos more]
      generalize body buffer w = r at counted ⊢
      cases counted with
      | stop stops => exact absurd stops.2.2 long
      | next w' goes_on next_index sim' =>
        rw [List.length_cons] at enough
        obtain ⟨fuel, rfl⟩ := Nat.exists_eq_succ_of_ne_zero (n := fuel) (by omega)
        exact ih room sim' next_index fuel (by omega)

lemma descriptors_length_le {total index : Nat} {ps : List Nat}
    (walk : Descriptors buffer total index ps) : ps.length ≤ total - index := by
  induction walk with
  | done => exact Nat.zero_le _
  | stop more =>
    rw [List.length_singleton]
    omega
  | next more long _ ih =>
    rw [List.length_cons]
    omega

lemma firstWalk_sim (buffer config : Bytes) :
    Sim (firstConfig buffer config) (firstWalk buffer config) ⟨0, 0, -1⟩ where
  few := Nat.zero_le _
  least := Nat.zero_le _
  count := by
    change (firstConfig buffer config noOfIf).toNat = 0
    rw [firstConfig, Function.update_self]
    rfl
  ifno := rfl
  current := rfl
  unset _ := rfl
  endpoints := nofun
  header _ _ := rfl
  free _ _ := rfl

lemma usbParseConfig_ok_iff (buffer config : Bytes) :
    (∃ r, usbParseConfig 65536 buffer config = some (.ok r)) ↔ StoresFit buffer config := by
  unfold usbParseConfig
  by_cases other : buffer 1 ≠ usbDtConfig
  · rw [if_pos other]
    exact iff_of_true ⟨_, rfl⟩ fun same => absurd same other
  rw [if_neg other]
  have sim := firstWalk_sim buffer config
  constructor
  · rintro ⟨r, run⟩ -
    cases loop : parseLoop buffer 65536 (firstWalk buffer config) with
    | none =>
      rw [loop] at run
      cases run
    | some done =>
      cases done with
      | error fault =>
        rw [loop] at run
        cases run
      | ok config' => exact parseLoop_counted sim loop
  · intro fits
    obtain ⟨ps, c, walk, room⟩ := fits (not_not.mp other)
    have short := descriptors_length_le walk
    have low := (firstConfig buffer config 2).toNat_lt
    have high := (firstConfig buffer config 3).toNat_lt
    have total : wTotalLength (firstConfig buffer config) < 65536 := by
      rw [wTotalLength]
      omega
    obtain ⟨config', loop⟩ :=
      @parseLoop_ends buffer _ _ 65536 _ _ ps walk room _ sim rfl (by omega)
    rw [loop]
    exact ⟨_, rfl⟩

section
variable {buffer : Bytes} {w w' : Walk}

lemma copied_of_ok {place size : Nat} {f : Bytes → Walk}
    (made : (copyDescriptor buffer config place size w.index).map f = .ok w') :
    len buffer w.index ≤ size ∧
      f (copied config place buffer w.index (len buffer w.index)) = w' := by
  by_cases fits : w.index + len buffer w.index ≤ wTotalLength buffer ∧ len buffer w.index ≤ size
  · rw [copyDescriptor_ok fits.1 fits.2] at made
    exact ⟨fits.2, Except.ok.inj made⟩
  · obtain ⟨fault, error⟩ := @copyDescriptor_error buffer config place size w.index fits
    rw [error] at made
    cases made

lemma newInterface_of_ok (made : ParseConfig.newInterface buffer w = .ok w') :
    newInterface buffer w = .ok w' := by
  unfold ParseConfig.newInterface at made
  unfold newInterface
  by_cases few : (w.config noOfIf).toNat < usbMaxInterfaces
  case neg =>
    rw [if_neg few] at made
    cases made
  rw [if_pos few] at made
  rw [if_neg (Nat.not_le.mpr few)]
  obtain ⟨fits, same⟩ := copied_of_ok made
  rw [if_neg (Nat.not_lt.mpr fits)]
  exact congrArg Except.ok same

lemma newEndpoint_of_ok (made : ParseConfig.newEndpoint buffer w = .ok w') :
    newEndpoint buffer w = .ok w' := by
  unfold ParseConfig.newEndpoint at made
  unfold newEndpoint
  by_cases inside : 0 ≤ w.ifno ∧ w.ifno < usbMaxInterfaces
  case neg =>
    rw [if_neg inside] at made
    cases made
  rw [if_pos inside] at made ⊢
  by_cases few : (w.config (ifDesc w.ifno.toNat + 9)).toNat < usbMaxEndpoints
  case neg =>
    rw [if_neg few] at made
    cases made
  rw [if_pos few] at made
  rw [if_neg (Nat.not_le.mpr few)]
  obtain ⟨fits, same⟩ := copied_of_ok made
  rw [if_neg (Nat.not_lt.mpr fits)]
  exact congrArg Except.ok same

lemma map_of_ok {r r' : Except Fault Walk} {next : Option Walk} {f : Walk → Option Walk}
    (same : ∀ w', r = .ok w' → r' = .ok w') (done : r.map f = .ok next) : r'.map f = .ok next := by
  cases r with
  | error fault => cases done
  | ok w' => rw [same w' rfl, done]

lemma body_of_ok {next : Option Walk} (done : ParseConfig.body buffer w = .ok next) :
    body buffer w = .ok next := by
  by_cases more : w.index + 1 < wTotalLength buffer
  case neg =>
    rw [ParseConfig.body, readByte_error (Nat.not_lt.mp more)] at done
    cases done
  rw [body_eq more] at done
  unfold body
  by_cases interface : IsInterface buffer w.index
  · rw [if_pos interface] at done ⊢
    by_cases behind : wTotalLength buffer ≤ w.index + 2
    · rw [if_pos behind] at done
      cases done
    rw [if_neg behind] at done
    refine map_of_ok (fun w' found => ?_) done
    by_cases new : (number buffer w.index : Int) ≠ w.currIfNum
    · rw [if_pos new] at found ⊢
      exact newInterface_of_ok found
    · rw [if_neg new] at found ⊢
      exact found
  · rw [if_neg interface] at done ⊢
    by_cases endpoint : IsEndpoint buffer w.index
    · rw [if_pos endpoint] at done ⊢
      exact map_of_ok (fun w' found => newEndpoint_of_ok found) done
    · rw [if_neg endpoint] at done ⊢
      exact done

lemma parseLoop_of_ok {fuel : Nat} (run : ParseConfig.parseLoop buffer fuel w = some (.ok config)) :
    parseLoop buffer fuel w = some (.ok config) := by
  induction fuel generalizing w with
  | zero => cases run
  | succ fuel ih =>
    rw [ParseConfig.parseLoop] at run
    rw [parseLoop]
    by_cases more : w.index + 1 < wTotalLength w.config
    · rw [if_pos more] at run ⊢
      cases done : ParseConfig.body buffer w with
      | error fault =>
        rw [done] at run
        cases run
      | ok next =>
        rw [done] at run
        rw [body_of_ok done]
        cases next with
        | none => exact run
        | some w' => exact ih run
    · rw [if_neg more] at run ⊢
      exact run

end

/-- A block that `usb_parse_config` gets through without a read behind it is stored the same. -/
theorem usbParseConfig_of_ok {fuel : Nat} {r : Int × Bytes}
    (run : ParseConfig.usbParseConfig fuel buffer config = some (.ok r)) :
    usbParseConfig fuel buffer config = some (.ok r) := by
  obtain ⟨-, ⟨other, rfl⟩ | ⟨same, -, config', loop, rfl⟩⟩ := usbParseConfig_ok.mp run
  · exact if_pos other
  · rw [usbParseConfig, if_neg (not_not.mpr same), parseLoop_of_ok loop]
    rfl

end ConfigStores
