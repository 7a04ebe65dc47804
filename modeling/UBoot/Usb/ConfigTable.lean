import UBoot.Usb.ParseConfig

/-!
# The tables of a configuration (common/usb.c)

What `usb_parse_config` records, as a list of interfaces with the places of their descriptors in the
buffer. A step of the loop and a step of the list go together.
-/

namespace ParseConfig

/-! ## The list -/

structure Entry where
  desc : Nat
  eps : List Nat

def len (buffer : Bytes) (p : Nat) : Nat := (buffer p).toNat

def number (buffer : Bytes) (p : Nat) : Nat := (buffer (p + 2)).toNat

def IsInterface (buffer : Bytes) (p : Nat) : Prop := buffer (p + 1) = usbDtInterface

def IsEndpoint (buffer : Bytes) (p : Nat) : Prop := buffer (p + 1) = usbDtEndpoint

instance IsInterface.decidable (buffer : Bytes) (p : Nat) : Decidable (IsInterface buffer p) :=
  inferInstanceAs (Decidable (_ = _))

instance IsEndpoint.decidable (buffer : Bytes) (p : Nat) : Decidable (IsEndpoint buffer p) :=
  inferInstanceAs (Decidable (_ = _))

/-- The number that the table has for the `k`-th interface: that of its descriptor, or what was
there before if the descriptor ends before it. -/
def kept (buffer start : Bytes) (k p : Nat) : Nat :=
  if 2 < len buffer p then number buffer p else (start (ifDesc k + 2)).toNat

/-- The interface that is the last one, and what is recorded. The newest is in front. -/
structure Table where
  entries : List Entry
  current : Int

def record (buffer start : Bytes) (t : Table) (p : Nat) : Option Table :=
  if IsInterface buffer p then
    if wTotalLength buffer ≤ p + 2 then none
    else if (number buffer p : Int) = t.current then some t
    else if t.entries.length < usbMaxInterfaces ∧ p + len buffer p ≤ wTotalLength buffer ∧
        len buffer p ≤ interfaceSize then
      some ⟨⟨p, []⟩ :: t.entries, kept buffer start t.entries.length p⟩
    else none
  else if IsEndpoint buffer p then
    match t.entries with
    | [] => none
    | e :: entries =>
      if e.eps.length < usbMaxEndpoints ∧ p + len buffer p ≤ wTotalLength buffer ∧
          len buffer p ≤ endpointSize then
        some ⟨⟨e.desc, e.eps ++ [p]⟩ :: entries, t.current⟩
      else none
  else some t

/-- The places of the descriptors that the loop comes to, up to `total`. -/
inductive Descriptors (buffer : Bytes) (total : Nat) : Nat → List Nat → Prop where
  | done {index : Nat} : total ≤ index + 1 → Descriptors buffer total index []
  | stop {index : Nat} : index + 1 < total → ¬ IsInterface buffer index →
      ¬ IsEndpoint buffer index → len buffer index = 0 → Descriptors buffer total index [index]
  | next {index : Nat} {ps : List Nat} : index + 1 < total → len buffer index ≠ 0 →
      Descriptors buffer total (index + len buffer index) ps →
      Descriptors buffer total index (index :: ps)

/-! ## The table in memory -/

def Copy (buffer config : Bytes) (place index n : Nat) : Prop :=
  ∀ o < n, config (place + o) = buffer (index + o)

structure Held (buffer config : Bytes) (k : Nat) (e : Entry) : Prop where
  few : e.eps.length ≤ usbMaxEndpoints
  desc : Copy buffer config (ifDesc k) e.desc (min 9 (len buffer e.desc))
  count : (config (ifDesc k + 9)).toNat = e.eps.length
  eps : ∀ j p, e.eps[j]? = some p → Copy buffer config (epDesc k j) p (len buffer p)
  sizes : ∀ p ∈ e.eps, len buffer p ≤ endpointSize

def AllHeld (buffer config : Bytes) : List Entry → Prop
  | [] => True
  | e :: entries => Held buffer config entries.length e ∧ AllHeld buffer config entries

structure Sim (buffer start : Bytes) (w : Walk) (t : Table) : Prop where
  few : t.entries.length ≤ usbMaxInterfaces
  count : (w.config noOfIf).toNat = t.entries.length
  ifno : w.ifno = t.entries.length - 1
  current : w.currIfNum = t.current
  unset : t.entries = [] → t.current = -1
  header : ∀ a < 9, w.config a = start a
  held : AllHeld buffer w.config t.entries
  free : ∀ a, ifDesc t.entries.length ≤ a → w.config a = start a

/-! ## Frames -/

variable {buffer config config' : Bytes} {index : Nat} {e : Entry} {entries : List Entry}

/-- The bytes of the `k`-th interface are the same, `num_altsetting` apart. -/
def Same (k : Nat) (config config' : Bytes) : Prop :=
  ∀ a, ifDesc k ≤ a → a < ifDesc (k + 1) → a ≠ ifDesc k + 10 → config' a = config a

lemma Copy.congr {place n : Nat} (copy : Copy buffer config place index n)
    (same : ∀ o < n, config' (place + o) = config (place + o)) :
    Copy buffer config' place index n :=
  fun o inside => (same o inside).trans (copy o inside)

lemma Held.congr {k : Nat} (held : Held buffer config k e) (same : Same k config config') :
    Held buffer config' k e where
  few := held.few
  desc := held.desc.congr fun o inside =>
    same _ (by omega) (by unfold ifDesc; omega) (by omega)
  count := by rw [same _ (by omega) (by unfold ifDesc; omega) (by omega), held.count]
  eps j p found := by
    have few := held.few
    have place := (List.getElem?_eq_some_iff.mp found).1
    have size := held.sizes p (List.mem_of_getElem? found)
    unfold usbMaxEndpoints at few
    unfold endpointSize at size
    exact (held.eps j p found).congr fun o inside =>
      same _ (by unfold epDesc; omega) (by unfold epDesc ifDesc; omega) (by unfold epDesc; omega)
  sizes := held.sizes

lemma AllHeld.congr (held : AllHeld buffer config entries)
    (same : ∀ a, ifDesc 0 ≤ a → a < ifDesc entries.length → config' a = config a) :
    AllHeld buffer config' entries := by
  induction entries with
  | nil => trivial
  | cons e entries ih =>
    have longer : ifDesc entries.length ≤ ifDesc (entries.length + 1) := by unfold ifDesc; omega
    refine ⟨held.1.congr fun a low high _ => same a ?_ high,
      ih held.2 fun a low high => same a low ?_⟩
    · unfold ifDesc at low ⊢
      omega
    · exact Nat.lt_of_lt_of_le high longer

lemma copied_inside (config : Bytes) (place : Nat) (buffer : Bytes) (index n : Nat) {a : Nat}
    (low : place ≤ a) (high : a < place + n) :
    copied config place buffer index n a = buffer (index + (a - place)) :=
  if_pos ⟨low, high⟩

lemma copied_outside (config : Bytes) (place : Nat) (buffer : Bytes) (index n : Nat) {a : Nat}
    (outside : a < place ∨ place + n ≤ a) : copied config place buffer index n a = config a :=
  if_neg (by omega)

lemma copied_copy (config : Bytes) (place : Nat) (buffer : Bytes) (index n : Nat) :
    Copy buffer (copied config place buffer index n) place index n := by
  intro o inside
  rw [copied_inside _ _ _ _ _ (by omega) (by omega)]
  congr 1
  omega

lemma copyDescriptor_ok {place size : Nat} (inside : index + len buffer index ≤ wTotalLength buffer)
    (fits : len buffer index ≤ size) :
    copyDescriptor buffer config place size index =
      .ok (copied config place buffer index (len buffer index)) := by
  unfold len at inside fits ⊢
  rw [copyDescriptor, if_neg (Nat.not_lt.mpr inside), if_neg (Nat.not_lt.mpr fits)]

lemma copyDescriptor_error {buffer config : Bytes} {place size index : Nat}
    (wrong : ¬ (index + len buffer index ≤ wTotalLength buffer ∧ len buffer index ≤ size)) :
    ∃ fault, copyDescriptor buffer config place size index = .error fault := by
  unfold len at wrong
  unfold copyDescriptor
  dsimp only
  split
  case isTrue => exact ⟨_, rfl⟩
  case isFalse inside =>
    rw [if_pos (by omega)]
    exact ⟨_, rfl⟩

/-! ## A step -/

def withInterface (buffer config : Bytes) (ifno index : Nat) : Bytes :=
  Function.update (Function.update (copied (Function.update config noOfIf (config noOfIf + 1))
    (ifDesc ifno) buffer index (len buffer index)) (ifDesc ifno + 9) 0) (ifDesc ifno + 10) 1

section
variable (buffer config : Bytes) (ifno index : Nat)

lemma withInterface_desc {o : Nat} (close : o < min 9 (len buffer index)) :
    withInterface buffer config ifno index (ifDesc ifno + o) = buffer (index + o) := by
  rw [withInterface, Function.update_of_ne (by omega), Function.update_of_ne (by omega)]
  exact copied_copy _ (ifDesc ifno) buffer index _ o (by omega)

lemma withInterface_noOfEp : withInterface buffer config ifno index (ifDesc ifno + 9) = 0 := by
  rw [withInterface, Function.update_of_ne (by omega), Function.update_self]

lemma withInterface_outside {a : Nat} (count : a ≠ noOfIf)
    (apart : a < ifDesc ifno ∨
      ifDesc ifno + len buffer index ≤ a ∧ a ≠ ifDesc ifno + 9 ∧ a ≠ ifDesc ifno + 10) :
    withInterface buffer config ifno index a = config a := by
  rw [withInterface, Function.update_of_ne (by omega), Function.update_of_ne (by omega),
    copied_outside _ _ _ _ _ (by omega), Function.update_of_ne count]

lemma withInterface_noOfIf :
    withInterface buffer config ifno index noOfIf = config noOfIf + 1 := by
  have before : noOfIf < ifDesc ifno := by unfold noOfIf ifDesc; omega
  rw [withInterface, Function.update_of_ne (by omega), Function.update_of_ne (by omega),
    copied_outside _ _ _ _ _ (.inl before), Function.update_self]

end

variable {start : Bytes}

lemma withInterface_number (buffer : Bytes) {k : Nat} (index : Nat)
    (free : ∀ a, ifDesc k ≤ a → config a = start a) :
    (withInterface buffer config k index (ifDesc k + 2)).toNat = kept buffer start k index := by
  rw [kept]
  by_cases own : 2 < len buffer index
  · rw [if_pos own, withInterface_desc _ _ _ _ (by omega)]
    rfl
  · have place : 9 < ifDesc k := by unfold ifDesc; omega
    rw [if_neg own, withInterface_outside _ _ _ _ (by unfold noOfIf; omega) (by omega),
      free _ (by omega)]

section
variable {buffer start : Bytes} {w : Walk} {t : Table} (sim : Sim buffer start w t)
include sim

lemma newInterface_sim (few : t.entries.length < usbMaxInterfaces)
    (inside : w.index + len buffer w.index ≤ wTotalLength buffer)
    (fits : len buffer w.index ≤ interfaceSize) :
    ∃ w', newInterface buffer w = .ok w' ∧ w'.index = w.index ∧
      Sim buffer start w'
        ⟨⟨w.index, []⟩ :: t.entries, kept buffer start t.entries.length w.index⟩ := by
  have place : 9 < ifDesc t.entries.length := by unfold ifDesc; omega
  have next : ifDesc (t.entries.length + 1) = ifDesc t.entries.length + 172 := by
    unfold ifDesc
    omega
  have number_eq := withInterface_number buffer w.index sim.free
  have made : newInterface buffer w = .ok ⟨withInterface buffer w.config t.entries.length w.index,
      w.index, t.entries.length, kept buffer start t.entries.length w.index⟩ := by
    rw [newInterface, sim.count, if_pos few, copyDescriptor_ok inside fits, ← number_eq]
    rfl
  have short : len buffer w.index ≤ 172 := fits
  refine ⟨_, made, rfl, few, ?count, ?ifno, rfl, nofun, ?header, ⟨⟨Nat.zero_le _, ?desc, ?eps,
    nofun, nofun⟩, ?held⟩, ?free⟩
  case count =>
    have less : t.entries.length + 1 < 256 := Nat.lt_of_le_of_lt few (by decide)
    dsimp only
    rw [withInterface_noOfIf, UInt8.toNat_add, sim.count, List.length_cons]
    exact Nat.mod_eq_of_lt less
  case ifno =>
    rw [List.length_cons]
    push_cast
    omega
  case header =>
    intro a low
    dsimp only
    rw [withInterface_outside _ _ _ _ (by unfold noOfIf; omega) (by omega), sim.header a low]
  case desc => exact fun o close => withInterface_desc _ _ _ _ close
  case eps =>
    dsimp only
    rw [withInterface_noOfEp]
    rfl
  case held =>
    refine sim.held.congr fun a low high => ?_
    unfold ifDesc at low
    exact withInterface_outside _ _ _ _ (by unfold noOfIf; omega) (.inl high)
  case free =>
    intro a low
    dsimp only at low ⊢
    rw [List.length_cons] at low
    rw [withInterface_outside _ _ _ _ (by unfold noOfIf; omega) (by omega), sim.free a (by omega)]

lemma newInterface_error (full : ¬ (t.entries.length < usbMaxInterfaces ∧
    w.index + len buffer w.index ≤ wTotalLength buffer ∧ len buffer w.index ≤ interfaceSize)) :
    ∃ fault, newInterface buffer w = .error fault := by
  unfold newInterface
  rw [sim.count]
  by_cases few : t.entries.length < usbMaxInterfaces
  · rw [if_pos few]
    obtain ⟨fault, error⟩ := copyDescriptor_error fun both => full ⟨few, both⟩
    exact ⟨fault, by rw [error]; rfl⟩
  · rw [if_neg few]
    exact ⟨_, rfl⟩

lemma Sim.last {e : Entry} {entries : List Entry} (cons : t.entries = e :: entries) :
    w.ifno = entries.length ∧ 0 ≤ w.ifno ∧ w.ifno < usbMaxInterfaces := by
  have few := sim.few
  have ifno := sim.ifno
  rw [cons, List.length_cons] at few ifno
  unfold usbMaxInterfaces at few ⊢
  push_cast at ifno
  omega

lemma alternateSetting_sim (cons : t.entries = e :: entries) :
    ∃ w', alternateSetting w = .ok w' ∧ w'.index = w.index ∧ Sim buffer start w' t := by
  obtain ⟨ifno, inside⟩ := sim.last cons
  have last : w.ifno.toNat = entries.length := by omega
  have held := sim.held
  have free := sim.free
  rw [cons] at held free
  rw [List.length_cons] at free
  refine ⟨_, if_pos inside, rfl, ?_⟩
  rw [last]
  have other {a : Nat} (apart : a ≠ ifDesc entries.length + 10) :
      Function.update w.config (ifDesc entries.length + 10)
        (w.config (ifDesc entries.length + 10) + 1) a = w.config a :=
    Function.update_of_ne apart _ _
  refine ⟨sim.few, ?count, sim.ifno, sim.current, sim.unset, ?header, ?held, ?free⟩
  case count =>
    dsimp only
    rw [other (by unfold noOfIf ifDesc; omega), sim.count]
  case header =>
    intro a low
    dsimp only
    rw [other (by unfold ifDesc; omega), sim.header a low]
  case held =>
    rw [cons]
    exact ⟨held.1.congr fun a _ _ apart => other apart,
      held.2.congr fun a _ high => other (by omega)⟩
  case free =>
    intro a low
    dsimp only
    rw [cons, List.length_cons] at low
    rw [other (by unfold ifDesc at low ⊢; omega), free a low]

end

def withEndpoint (buffer config : Bytes) (ifno epno index : Nat) : Bytes :=
  copied (Function.update config (ifDesc ifno + 9) (config (ifDesc ifno + 9) + 1))
    (epDesc ifno epno) buffer index (len buffer index)

section
variable (buffer config : Bytes) (ifno epno index : Nat)

lemma withEndpoint_desc :
    Copy buffer (withEndpoint buffer config ifno epno index) (epDesc ifno epno) index
      (len buffer index) :=
  copied_copy _ _ buffer index _

lemma withEndpoint_noOfEp : withEndpoint buffer config ifno epno index (ifDesc ifno + 9) =
    config (ifDesc ifno + 9) + 1 := by
  rw [withEndpoint, copied_outside _ _ _ _ _ (.inl (by unfold epDesc; omega)),
    Function.update_self]

lemma withEndpoint_outside {a : Nat} (count : a ≠ ifDesc ifno + 9)
    (apart : a < epDesc ifno epno ∨ epDesc ifno epno + len buffer index ≤ a) :
    withEndpoint buffer config ifno epno index a = config a := by
  rw [withEndpoint, copied_outside _ _ _ _ _ apart, Function.update_of_ne count]

end

lemma Held.withEndpoint {k : Nat} (held : Held buffer config k e) {p : Nat}
    (few : e.eps.length < usbMaxEndpoints) (fits : len buffer p ≤ endpointSize) :
    Held buffer (withEndpoint buffer config k e.eps.length p) k ⟨e.desc, e.eps ++ [p]⟩ where
  few := by
    rw [List.length_append, List.length_singleton]
    omega
  desc := held.desc.congr fun o close =>
    withEndpoint_outside _ _ _ _ _ (by omega) (.inl (by unfold epDesc; omega))
  count := by
    have less : e.eps.length + 1 < 256 := Nat.lt_of_le_of_lt few (by decide)
    rw [withEndpoint_noOfEp, UInt8.toNat_add, held.count, List.length_append]
    exact Nat.mod_eq_of_lt less
  eps j q found := by
    rw [List.getElem?_append] at found
    split at found
    case isTrue earlier =>
      have size := held.sizes q (List.mem_of_getElem? found)
      unfold endpointSize at size
      exact (held.eps j q found).congr fun o inside =>
        withEndpoint_outside _ _ _ _ _ (by unfold epDesc; omega) (.inl (by unfold epDesc; omega))
    case isFalse later =>
      rw [List.getElem?_singleton] at found
      split at found
      case isTrue first =>
        obtain rfl : p = q := Option.some.inj found
        obtain rfl : j = e.eps.length := by omega
        exact withEndpoint_desc _ _ _ _ _
      case isFalse => cases found
  sizes q member := by
    rcases List.mem_append.mp member with earlier | new
    · exact held.sizes q earlier
    · rw [List.mem_singleton.mp new]
      exact fits

section
variable {buffer start : Bytes} {w : Walk} {t : Table} (sim : Sim buffer start w t)
include sim

lemma newEndpoint_sim (cons : t.entries = e :: entries) (few : e.eps.length < usbMaxEndpoints)
    (inside : w.index + len buffer w.index ≤ wTotalLength buffer)
    (fits : len buffer w.index ≤ endpointSize) :
    ∃ w', newEndpoint buffer w = .ok w' ∧ w'.index = w.index ∧
      Sim buffer start w' ⟨⟨e.desc, e.eps ++ [w.index]⟩ :: entries, t.current⟩ := by
  obtain ⟨ifno, last⟩ := sim.last cons
  have place : w.ifno.toNat = entries.length := by omega
  have held := sim.held
  have free := sim.free
  rw [cons] at held free
  rw [List.length_cons] at free
  have made : newEndpoint buffer w = .ok { w with
      config := withEndpoint buffer w.config entries.length e.eps.length w.index } := by
    rw [newEndpoint, if_pos last, place]
    dsimp only
    rw [held.1.count, if_pos few, copyDescriptor_ok inside fits]
    rfl
  have short : len buffer w.index ≤ 10 := fits
  have long : t.entries.length = entries.length + 1 := congrArg List.length cons
  have count : w.config noOfIf = withEndpoint buffer w.config entries.length e.eps.length w.index
      noOfIf :=
    (withEndpoint_outside _ _ _ _ _ (by unfold noOfIf ifDesc; omega)
      (.inl (by unfold noOfIf epDesc ifDesc; omega))).symm
  refine ⟨_, made, rfl, ?few, ?count, ?ifno, sim.current, nofun, ?header,
    ⟨held.1.withEndpoint few fits, ?held⟩, ?free⟩
  case few =>
    rw [List.length_cons, ← long]
    exact sim.few
  case count =>
    dsimp only
    rw [← count, List.length_cons, ← long]
    exact sim.count
  case ifno =>
    rw [List.length_cons, ← long]
    exact sim.ifno
  case header =>
    intro a low
    dsimp only
    rw [withEndpoint_outside _ _ _ _ _ (by unfold ifDesc; omega)
      (.inl (by unfold epDesc ifDesc; omega)), sim.header a low]
  case held =>
    exact held.2.congr fun a _ high =>
      withEndpoint_outside _ _ _ _ _ (by omega) (.inl (by unfold epDesc; omega))
  case free =>
    intro a low
    have behind : epDesc entries.length e.eps.length + 10 ≤ ifDesc (entries.length + 1) := by
      unfold usbMaxEndpoints at few
      unfold epDesc ifDesc
      omega
    have inner : ifDesc entries.length + 9 < epDesc entries.length e.eps.length := by
      unfold epDesc
      omega
    dsimp only at low ⊢
    rw [List.length_cons] at low
    rw [withEndpoint_outside _ _ _ _ _ (by omega) (.inr (by omega)), free a low]

lemma newEndpoint_error (cons : t.entries = e :: entries)
    (full : ¬ (e.eps.length < usbMaxEndpoints ∧
      w.index + len buffer w.index ≤ wTotalLength buffer ∧ len buffer w.index ≤ endpointSize)) :
    ∃ fault, newEndpoint buffer w = .error fault := by
  obtain ⟨ifno, last⟩ := sim.last cons
  have place : w.ifno.toNat = entries.length := by omega
  have held := sim.held
  rw [cons] at held
  rw [newEndpoint, if_pos last, place]
  dsimp only
  rw [held.1.count]
  by_cases few : e.eps.length < usbMaxEndpoints
  · rw [if_pos few]
    obtain ⟨fault, error⟩ := copyDescriptor_error fun both => full ⟨few, both⟩
    exact ⟨fault, by rw [error]; rfl⟩
  · rw [if_neg few]
    exact ⟨_, rfl⟩

lemma newEndpoint_early (nil : t.entries = []) : ∃ fault, newEndpoint buffer w = .error fault := by
  have ifno := sim.ifno
  rw [nil] at ifno
  rw [newEndpoint, if_neg (by rw [ifno]; decide)]
  exact ⟨_, rfl⟩

end

variable {t : Table}

def Stops (buffer : Bytes) (p : Nat) : Prop :=
  ¬ IsInterface buffer p ∧ ¬ IsEndpoint buffer p ∧ len buffer p = 0

/-- What the body of the loop does when the table has room for the descriptor. -/
inductive Recorded (buffer start : Bytes) (w : Walk) (t : Table) :
    Except Fault (Option Walk) → Prop where
  | stop : Stops buffer w.index → Sim buffer start w t → Recorded buffer start w t (.ok none)
  | next (w' : Walk) : ¬ Stops buffer w.index → w'.index = w.index + len buffer w.index →
      Sim buffer start w' t → Recorded buffer start w t (.ok (some w'))

lemma readByte_ok (inside : index < wTotalLength buffer) :
    readByte buffer index = .ok (buffer index) :=
  if_pos inside

lemma readByte_error (outside : wTotalLength buffer ≤ index) :
    readByte buffer index = .error .read :=
  if_neg (Nat.not_lt.mpr outside)

lemma Sim.forward {w : Walk} (sim : Sim buffer start w t) :
    Sim buffer start (w.forward buffer) t :=
  ⟨sim.few, sim.count, sim.ifno, sim.current, sim.unset, sim.header, sim.held, sim.free⟩

section
variable {buffer start : Bytes} {w : Walk} {t : Table} (sim : Sim buffer start w t)
  (more : w.index + 1 < wTotalLength buffer)
include more

lemma body_eq : body buffer w =
    if IsInterface buffer w.index then
      if wTotalLength buffer ≤ w.index + 2 then .error .read
      else (if (number buffer w.index : Int) ≠ w.currIfNum then newInterface buffer w
        else alternateSetting w).map fun w => some (w.forward buffer)
    else if IsEndpoint buffer w.index then
      (newEndpoint buffer w).map fun w => some (w.forward buffer)
    else if len buffer w.index = 0 then .ok none
    else .ok (some (w.forward buffer)) := by
  have zero : buffer w.index = 0 ↔ len buffer w.index = 0 := UInt8.toNat_inj.symm
  rw [body, readByte_ok more, Except.bind]
  refine if_congr Iff.rfl ?_ (if_congr Iff.rfl rfl (if_congr zero rfl rfl))
  by_cases behind : wTotalLength buffer ≤ w.index + 2
  · rw [readByte_error behind, if_pos behind]
    rfl
  · rw [readByte_ok (Nat.not_le.mp behind), if_neg behind]
    rfl

include sim

lemma body_error (full : record buffer start t w.index = none) :
    ∃ fault, body buffer w = .error fault := by
  have error_map {r : Except Fault Walk} (error : ∃ fault, r = .error fault) :
      ∃ fault, r.map (fun w => some (w.forward buffer)) = .error fault := by
    obtain ⟨fault, rfl⟩ := error
    exact ⟨fault, rfl⟩
  rw [body_eq more]
  rw [record] at full
  split at full
  case isTrue interface =>
    rw [if_pos interface]
    split at full
    case isTrue behind =>
      rw [if_pos behind]
      exact ⟨_, rfl⟩
    case isFalse inside =>
      rw [if_neg inside, sim.current]
      split at full
      case isTrue => cases full
      case isFalse new =>
        rw [if_pos new]
        split at full
        case isTrue => cases full
        case isFalse room => exact error_map (newInterface_error sim room)
  case isFalse other =>
    rw [if_neg other]
    split at full
    case isTrue endpoint =>
      rw [if_pos endpoint]
      refine error_map ?_
      split at full
      case h_1 nil => exact newEndpoint_early sim nil
      case h_2 e entries cons =>
        split at full
        case isTrue => cases full
        case isFalse room => exact newEndpoint_error sim cons room
    case isFalse => cases full

lemma body_recorded {t' : Table} (room : record buffer start t w.index = some t') :
    Recorded buffer start w t' (body buffer w) := by
  have next_map {r : Except Fault Walk} (goes_on : ¬ Stops buffer w.index)
      (done : ∃ w', r = .ok w' ∧ w'.index = w.index ∧ Sim buffer start w' t') :
      Recorded buffer start w t' (r.map fun w => some (w.forward buffer)) := by
    obtain ⟨w', rfl, index, sim'⟩ := done
    refine .next _ goes_on ?_ sim'.forward
    rw [Walk.forward, index]
    rfl
  rw [body_eq more]
  rw [record] at room
  split at room
  case isTrue interface =>
    have goes_on : ¬ Stops buffer w.index := fun stops => stops.1 interface
    rw [if_pos interface]
    split at room
    case isTrue => cases room
    case isFalse inside =>
      rw [if_neg inside, sim.current]
      refine next_map goes_on ?_
      split at room
      case isTrue again =>
        cases room
        rw [if_neg (not_not.mpr again)]
        cases entries : t.entries with
        | nil =>
          rw [sim.unset entries] at again
          omega
        | cons e entries' => exact alternateSetting_sim sim entries
      case isFalse new =>
        rw [if_pos new]
        split at room
        case isTrue fits =>
          cases room
          exact newInterface_sim sim fits.1 fits.2.1 fits.2.2
        case isFalse => cases room
  case isFalse other =>
    rw [if_neg other]
    split at room
    case isTrue endpoint =>
      rw [if_pos endpoint]
      refine next_map (fun stops => stops.2.1 endpoint) ?_
      split at room
      case h_1 => cases room
      case h_2 e entries cons =>
        split at room
        case isTrue fits =>
          cases room
          exact newEndpoint_sim sim cons fits.1 fits.2.1 fits.2.2
        case isFalse => cases room
    case isFalse other' =>
      cases room
      rw [if_neg other']
      split
      case isTrue zero => exact .stop ⟨other, other', zero⟩ sim
      case isFalse long => exact .next _ (fun stops => long stops.2.2) rfl sim.forward

end

/-! ## A run -/

def recordAll (buffer start : Bytes) (t : Table) (ps : List Nat) : Option Table :=
  ps.foldlM (record buffer start) t

/-- The descriptors lie in the buffer, and there is room for them in the table. -/
structure Fitting (buffer start : Bytes) (index : Nat) (t t' : Table) (ps : List Nat) : Prop where
  walk : Descriptors buffer (wTotalLength start) index ps
  inside : ∀ p ∈ ps, p + 1 < wTotalLength buffer
  room : recordAll buffer start t ps = some t'

lemma recordAll_cons {t' t'' : Table} {p : Nat} {ps : List Nat}
    (first : record buffer start t p = some t') (rest : recordAll buffer start t' ps = some t'') :
    recordAll buffer start t (p :: ps) = some t'' := by
  rw [recordAll, List.foldlM_cons, first]
  exact rest

lemma Sim.total {w : Walk} (sim : Sim buffer start w t) :
    wTotalLength w.config = wTotalLength start := by
  rw [wTotalLength, wTotalLength, sim.header 2 (by decide), sim.header 3 (by decide)]

lemma parseLoop_fitting {fuel : Nat} {w : Walk} (sim : Sim buffer start w t)
    (run : parseLoop buffer fuel w = some (.ok config)) :
    ∃ t' ps, Fitting buffer start w.index t t' ps ∧
      ∃ w', w'.config = config ∧ Sim buffer start w' t' := by
  induction fuel generalizing w t with
  | zero => cases run
  | succ fuel ih =>
    rw [parseLoop, sim.total] at run
    split at run
    case isFalse ended =>
      cases run
      exact ⟨t, [], ⟨.done (Nat.not_lt.mp ended), nofun, rfl⟩, w, rfl, sim⟩
    case isTrue more =>
      have inside : w.index + 1 < wTotalLength buffer := by
        by_contra behind
        rw [body, readByte_error (Nat.not_lt.mp behind)] at run
        cases run
      cases room : record buffer start t w.index with
      | none =>
        obtain ⟨fault, error⟩ := body_error sim inside room
        rw [error] at run
        cases run
      | some t' =>
        have recorded := body_recorded sim inside room
        generalize body buffer w = r at recorded run
        cases recorded with
        | stop stops sim' =>
          cases run
          refine ⟨t', [w.index], ⟨.stop more stops.1 stops.2.1 stops.2.2, ?_, ?_⟩, w, rfl, sim'⟩
          · exact fun p member => List.mem_singleton.mp member ▸ inside
          · exact recordAll_cons room rfl
        | next w' goes_on index sim' =>
          obtain ⟨t'', ps, ⟨walk, inside', room'⟩, last⟩ := ih sim' run
          rw [index] at walk
          have long : len buffer w.index ≠ 0 := by
            intro zero
            rw [zero] at walk
            cases walk with
            | done ended => omega
            | stop _ interface endpoint => exact goes_on ⟨interface, endpoint, zero⟩
            | next _ long => exact long zero
          exact ⟨t'', w.index :: ps, ⟨.next more long walk,
            List.forall_mem_cons.mpr ⟨inside, inside'⟩, recordAll_cons room room'⟩, last⟩

lemma parseLoop_ends {buffer start : Bytes} {index : Nat} {t t' : Table} {ps : List Nat}
    (fitting : Fitting buffer start index t t' ps) {w : Walk} (sim : Sim buffer start w t)
    (at_index : w.index = index) :
    ∃ fuel config, parseLoop buffer fuel w = some (.ok config) := by
  obtain ⟨walk, inside, room⟩ := fitting
  induction walk generalizing w t with
  | done ended =>
    refine ⟨1, w.config, ?_⟩
    rw [parseLoop, sim.total, at_index, if_neg (Nat.not_lt.mpr ended)]
  | @stop index more interface endpoint zero =>
    subst at_index
    cases first : record buffer start t w.index with
    | none =>
      rw [recordAll, List.foldlM_cons, first] at room
      cases room
    | some t1 =>
      have recorded := body_recorded sim (inside _ List.mem_cons_self) first
      refine ⟨1, w.config, ?_⟩
      rw [parseLoop, sim.total, if_pos more]
      generalize body buffer w = r at recorded ⊢
      cases recorded with
      | stop => rfl
      | next w' goes_on => exact absurd ⟨interface, endpoint, zero⟩ goes_on
  | @next index ps more long walk ih =>
    subst at_index
    cases first : record buffer start t w.index with
    | none =>
      rw [recordAll, List.foldlM_cons, first] at room
      cases room
    | some t1 =>
      rw [recordAll, List.foldlM_cons, first] at room
      have recorded := body_recorded sim (inside _ List.mem_cons_self) first
      cases step : body buffer w with
      | error =>
        rw [step] at recorded
        cases recorded
      | ok r =>
        rw [step] at recorded
        cases recorded with
        | stop stops => exact absurd stops.2.2 long
        | next w' goes_on next_index sim' =>
          obtain ⟨fuel, config, run⟩ := ih sim' next_index
            (fun p member => inside p (List.mem_cons_of_mem _ member)) room
          refine ⟨fuel + 1, config, ?_⟩
          rw [parseLoop, sim.total, if_pos more, step]
          exact run

end ParseConfig
