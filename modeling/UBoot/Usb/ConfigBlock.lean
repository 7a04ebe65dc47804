import Mathlib.Algebra.GroupWithZero.Nat
import Mathlib.Data.List.Induction
import UBoot.Usb.ConfigTable

/-!
# Configuration blocks (common/usb.c)

Which blocks of descriptors `usb_parse_config` gets through, by the interfaces in them and their
alternate settings, and what it has recorded of a block that is as it should be.
-/

namespace ParseConfig

/-! ## The structure of a block -/

structure Setting where
  desc : Nat
  eps : List Nat

def settings (buffer : Bytes) : List Nat → List Nat × List Setting
  | [] => ([], [])
  | p :: ps =>
    let r := settings buffer ps
    if IsInterface buffer p then ([], ⟨p, r.1⟩ :: r.2)
    else if IsEndpoint buffer p then (p :: r.1, r.2)
    else r

structure Interface where
  first : Setting
  others : List Setting

def Interface.eps (x : Interface) : List Nat := x.first.eps ++ x.others.flatMap Setting.eps

/-- More settings of the current interface, and the interfaces from the `k`-th one on. -/
def interfaces (buffer start : Bytes) : (k : Nat) → (current : Int) → List Setting →
    List Setting × List Interface
  | _, _, [] => ([], [])
  | k, current, s :: ss =>
    if (number buffer s.desc : Int) = current then
      let r := interfaces buffer start k current ss
      (s :: r.1, r.2)
    else
      let r := interfaces buffer start (k + 1) (kept buffer start k s.desc) ss
      ([], ⟨s, r.1⟩ :: r.2)

def blockInterfaces (buffer start : Bytes) (ps : List Nat) : List Interface :=
  (interfaces buffer start 0 (-1) (settings buffer ps).2).2

/-! ## What is promised -/

/-- A block as it should be: descriptors one behind the other, none of them too short, the
endpoints of each setting and the interfaces as many as it says. -/
structure WellFormed (buffer start : Bytes) (ps : List Nat) : Prop where
  config : len buffer 0 = 9
  type : buffer 1 = usbDtConfig
  walk : Descriptors buffer (wTotalLength buffer) 9 ps
  whole : 9 + (ps.map (len buffer)).sum = wTotalLength buffer
  interface_len : ∀ p ∈ ps, IsInterface buffer p → 9 ≤ len buffer p
  endpoint_len : ∀ p ∈ ps, IsEndpoint buffer p → 7 ≤ len buffer p
  lead : (settings buffer ps).1 = []
  endpoints : ∀ s ∈ (settings buffer ps).2, s.eps.length = (buffer (s.desc + 4)).toNat
  count : (blockInterfaces buffer start ps).length = (buffer 4).toNat

/-- Every interface is recorded, with its first setting and the endpoints of that one in front, and
`usb_set_maxpacket` visits these. -/
structure Recording (buffer start config : Bytes) (ps : List Nat) : Prop where
  count : (config noOfIf).toNat = (blockInterfaces buffer start ps).length
  held : ∀ k x, (blockInterfaces buffer start ps)[k]? = some x →
    Held buffer config k ⟨x.first.desc, x.eps⟩
  visits : ∀ v ∈ visited config, ∃ x, (blockInterfaces buffer start ps)[v.1]? = some x ∧
    v.2 < x.first.eps.length

/-- The parser comes to its end with all accesses in place, and records well-formed blocks. -/
structure Sound (buffer config : Bytes) : Prop where
  ends : ∃ fuel r, usbParseConfig fuel buffer config = some (.ok r)
  records : ∀ ps, WellFormed buffer (firstConfig buffer config) ps → ∀ fuel r,
    usbParseConfig fuel buffer config = some (.ok r) →
    Recording buffer (firstConfig buffer config) r.2 ps

/-! ## When it holds -/

structure InterfaceFits (buffer : Bytes) (x : Interface) : Prop where
  inside : x.first.desc + len buffer x.first.desc ≤ wTotalLength buffer
  size : len buffer x.first.desc ≤ interfaceSize
  endpoints : x.eps.length ≤ usbMaxEndpoints

/-- Descriptors that lie in the block and for which there is room in the tables. -/
structure Fits (buffer start : Bytes) (ps : List Nat) : Prop where
  inside : ∀ p ∈ ps, p + 1 < wTotalLength buffer
  numbers : ∀ p ∈ ps, IsInterface buffer p → p + 2 < wTotalLength buffer
  endpoints : ∀ p ∈ ps, IsEndpoint buffer p →
    p + len buffer p ≤ wTotalLength buffer ∧ len buffer p ≤ endpointSize
  lead : (settings buffer ps).1 = []
  few : (blockInterfaces buffer start ps).length ≤ usbMaxInterfaces
  each : ∀ x ∈ blockInterfaces buffer start ps, InterfaceFits buffer x

/-- The header lies in the block. Behind a configuration descriptor the descriptors come to an end,
and fit. -/
def BlockFits (buffer config : Bytes) : Prop :=
  1 < wTotalLength buffer ∧ (buffer 1 = usbDtConfig → len buffer 0 ≤ wTotalLength buffer ∧
    ∃ ps, Descriptors buffer (wTotalLength (firstConfig buffer config))
      (len (firstConfig buffer config) 0) ps ∧ Fits buffer (firstConfig buffer config) ps)

/-! ## The table and the structure -/

structure Table.Kept (t : Table) : Prop where
  unset : t.entries = [] → t.current = -1
  few : ∀ e es, t.entries = e :: es → e.eps.length ≤ usbMaxEndpoints
  short : t.entries.length ≤ usbMaxInterfaces

def extend (eps : List Nat) : List Entry → List Entry
  | [] => []
  | e :: es => ⟨e.desc, e.eps ++ eps⟩ :: es

def Interface.entry (x : Interface) : Entry := ⟨x.first.desc, x.eps⟩

section
variable (buffer start : Bytes) (t : Table) (ps : List Nat)

/-- The settings that still belong to the last interface of the table, and the interfaces behind
it. -/
def behind : List Setting × List Interface :=
  interfaces buffer start t.entries.length t.current (settings buffer ps).2

def moreEps : List Nat :=
  (settings buffer ps).1 ++ (behind buffer start t ps).1.flatMap Setting.eps

def entriesAfter : List Entry :=
  ((behind buffer start t ps).2.map Interface.entry).reverse ++
    extend (moreEps buffer start t ps) t.entries

structure Room : Prop where
  numbers : ∀ p ∈ ps, IsInterface buffer p → p + 2 < wTotalLength buffer
  endpoints : ∀ p ∈ ps, IsEndpoint buffer p →
    p + len buffer p ≤ wTotalLength buffer ∧ len buffer p ≤ endpointSize
  lead : t.entries = [] → (settings buffer ps).1 = []
  last : ∀ e es, t.entries = e :: es →
    e.eps.length + (moreEps buffer start t ps).length ≤ usbMaxEndpoints
  few : t.entries.length + (behind buffer start t ps).2.length ≤ usbMaxInterfaces
  each : ∀ x ∈ (behind buffer start t ps).2, InterfaceFits buffer x

end

inductive RecordCase (buffer start : Bytes) (t : Table) (p : Nat) : Table → Prop where
  | again : IsInterface buffer p → p + 2 < wTotalLength buffer →
      (number buffer p : Int) = t.current → RecordCase buffer start t p t
  | new : IsInterface buffer p → p + 2 < wTotalLength buffer →
      (number buffer p : Int) ≠ t.current → t.entries.length < usbMaxInterfaces →
      p + len buffer p ≤ wTotalLength buffer → len buffer p ≤ interfaceSize →
      RecordCase buffer start t p
        ⟨⟨p, []⟩ :: t.entries, kept buffer start t.entries.length p⟩
  | endpoint (e : Entry) (es : List Entry) : ¬ IsInterface buffer p → IsEndpoint buffer p →
      t.entries = e :: es → e.eps.length < usbMaxEndpoints →
      p + len buffer p ≤ wTotalLength buffer → len buffer p ≤ endpointSize →
      RecordCase buffer start t p ⟨⟨e.desc, e.eps ++ [p]⟩ :: es, t.current⟩
  | other : ¬ IsInterface buffer p → ¬ IsEndpoint buffer p → RecordCase buffer start t p t

section
variable {buffer start : Bytes} {t t' : Table} {p : Nat} {ps : List Nat}

lemma record_iff : record buffer start t p = some t' ↔ RecordCase buffer start t p t' := by
  constructor
  · intro recorded
    rw [record] at recorded
    split at recorded
    case isTrue interface =>
      split at recorded
      case isTrue => cases recorded
      case isFalse inside =>
        split at recorded
        case isTrue again =>
          cases recorded
          exact .again interface (Nat.not_le.mp inside) again
        case isFalse new =>
          split at recorded
          case isTrue room =>
            cases recorded
            exact .new interface (Nat.not_le.mp inside) new room.1 room.2.1 room.2.2
          case isFalse => cases recorded
    case isFalse other =>
      split at recorded
      case isTrue endpoint =>
        split at recorded
        case h_1 => cases recorded
        case h_2 e es cons =>
          split at recorded
          case isTrue room =>
            cases recorded
            exact .endpoint e es other endpoint cons room.1 room.2.1 room.2.2
          case isFalse => cases recorded
      case isFalse other' =>
        cases recorded
        exact .other other other'
  · intro case
    cases case with
    | again interface inside again =>
      rw [record, if_pos interface, if_neg (Nat.not_le.mpr inside), if_pos again]
    | new interface inside new few fits size =>
      rw [record, if_pos interface, if_neg (Nat.not_le.mpr inside), if_neg new,
        if_pos ⟨few, fits, size⟩]
    | endpoint e es other endpoint cons few fits size =>
      rw [record, if_neg other, if_pos endpoint, cons]
      exact if_pos ⟨few, fits, size⟩
    | other other other' => rw [record, if_neg other, if_neg other']

lemma RecordCase.kept (case : RecordCase buffer start t p t') (before : t.Kept) : t'.Kept := by
  cases case with
  | again => exact before
  | new _ _ _ few => exact ⟨nofun, fun e es cons => by cases cons; exact Nat.zero_le _, few⟩
  | endpoint e es _ _ entries few =>
    have short := before.short
    rw [entries] at short
    refine ⟨nofun, fun e' es' cons => ?_, short⟩
    cases cons
    rw [List.length_append, List.length_singleton]
    omega
  | other => exact before

/-! ## A descriptor in front -/

lemma settings_interface (interface : IsInterface buffer p) : settings buffer (p :: ps) =
    ([], ⟨p, (settings buffer ps).1⟩ :: (settings buffer ps).2) := by
  rw [settings, if_pos interface]

lemma settings_endpoint (other : ¬ IsInterface buffer p) (endpoint : IsEndpoint buffer p) :
    settings buffer (p :: ps) = (p :: (settings buffer ps).1, (settings buffer ps).2) := by
  rw [settings, if_neg other, if_pos endpoint]

lemma settings_other (other : ¬ IsInterface buffer p) (other' : ¬ IsEndpoint buffer p) :
    settings buffer (p :: ps) = settings buffer ps := by
  rw [settings, if_neg other, if_neg other']

lemma IsInterface.not_endpoint (interface : IsInterface buffer p) : ¬ IsEndpoint buffer p := by
  unfold IsInterface at interface
  unfold IsEndpoint
  rw [interface]
  decide

lemma behind_again (interface : IsInterface buffer p)
    (again : (number buffer p : Int) = t.current) : behind buffer start t (p :: ps) =
      (⟨p, (settings buffer ps).1⟩ :: (behind buffer start t ps).1,
        (behind buffer start t ps).2) := by
  rw [behind, settings_interface interface]
  exact if_pos again

lemma behind_new (interface : IsInterface buffer p)
    (new : (number buffer p : Int) ≠ t.current) :
    let t' : Table := ⟨⟨p, []⟩ :: t.entries, ParseConfig.kept buffer start t.entries.length p⟩
    behind buffer start t (p :: ps) = ([], ⟨⟨p, (settings buffer ps).1⟩,
      (behind buffer start t' ps).1⟩ :: (behind buffer start t' ps).2) := by
  rw [behind, settings_interface interface]
  exact if_neg new

lemma behind_endpoint {e : Entry} {es : List Entry} (other : ¬ IsInterface buffer p)
    (endpoint : IsEndpoint buffer p) (cons : t.entries = e :: es) :
    behind buffer start t (p :: ps) =
      behind buffer start ⟨⟨e.desc, e.eps ++ [p]⟩ :: es, t.current⟩ ps := by
  rw [behind, settings_endpoint other endpoint, cons]
  rfl

lemma behind_other (other : ¬ IsInterface buffer p) (other' : ¬ IsEndpoint buffer p) :
    behind buffer start t (p :: ps) = behind buffer start t ps := by
  rw [behind, settings_other other other', behind]

lemma RecordCase.after (case : RecordCase buffer start t p t') :
    entriesAfter buffer start t (p :: ps) = entriesAfter buffer start t' ps := by
  unfold entriesAfter moreEps
  cases case with
  | again interface _ again =>
    rw [behind_again interface again, settings_interface interface]
    rfl
  | new interface _ new =>
    rw [behind_new interface new, settings_interface interface]
    dsimp only [extend]
    rw [List.map_cons, List.reverse_cons, List.append_assoc, List.flatMap_nil, List.nil_append]
    cases entries : t.entries with
    | nil => rfl
    | cons e es =>
      simp only [List.append_nil]
      rfl
  | endpoint e es other endpoint cons =>
    rw [behind_endpoint other endpoint cons, settings_endpoint other endpoint, cons]
    dsimp only [extend]
    rw [List.append_assoc]
    rfl
  | other other other' => rw [behind_other other other', settings_other other other']

/-! ## Room -/

lemma room_again (interface : IsInterface buffer p) (again : (number buffer p : Int) = t.current)
    (before : t.Kept) : Room buffer start t (p :: ps) ↔
      p + 2 < wTotalLength buffer ∧ Room buffer start t ps := by
  constructor
  · intro room
    have last := room.last
    have few := room.few
    have each := room.each
    rw [moreEps, settings_interface interface, behind_again interface again] at last
    rw [behind_again interface again] at few each
    refine ⟨room.numbers p List.mem_cons_self interface,
      (List.forall_mem_cons.mp room.numbers).2, (List.forall_mem_cons.mp room.endpoints).2, ?_,
      last, few, each⟩
    intro nil
    rw [before.unset nil] at again
    omega
  · rintro ⟨inside, room⟩
    refine ⟨List.forall_mem_cons.mpr ⟨fun _ => inside, room.numbers⟩,
      List.forall_mem_cons.mpr ⟨fun endpoint => absurd endpoint interface.not_endpoint,
        room.endpoints⟩, fun _ => by rw [settings_interface interface], ?_, ?_, ?_⟩
    · rw [moreEps, settings_interface interface, behind_again interface again]
      exact room.last
    · rw [behind_again interface again]
      exact room.few
    · rw [behind_again interface again]
      exact room.each

lemma room_new (interface : IsInterface buffer p) (new : (number buffer p : Int) ≠ t.current)
    (before : t.Kept) : Room buffer start t (p :: ps) ↔
      (p + 2 < wTotalLength buffer ∧ t.entries.length < usbMaxInterfaces ∧
        p + len buffer p ≤ wTotalLength buffer ∧ len buffer p ≤ interfaceSize) ∧
      Room buffer start ⟨⟨p, []⟩ :: t.entries,
        ParseConfig.kept buffer start t.entries.length p⟩ ps := by
  constructor
  · intro room
    have few := room.few
    have each := room.each
    rw [behind_new interface new] at few each
    obtain ⟨fits, each⟩ := List.forall_mem_cons.mp each
    rw [List.length_cons] at few
    refine ⟨⟨room.numbers p List.mem_cons_self interface, by omega, fits.inside, fits.size⟩,
      (List.forall_mem_cons.mp room.numbers).2, (List.forall_mem_cons.mp room.endpoints).2,
      nofun, ?_, ?_, each⟩
    · intro e es cons
      cases cons
      rw [List.length_nil, zero_add]
      exact fits.endpoints
    · rw [List.length_cons]
      omega
  · rintro ⟨⟨inside, few, fits, size⟩, room⟩
    have last := room.last _ _ rfl
    have count := room.few
    rw [List.length_cons] at count
    refine ⟨List.forall_mem_cons.mpr ⟨fun _ => inside, room.numbers⟩,
      List.forall_mem_cons.mpr ⟨fun endpoint => absurd endpoint interface.not_endpoint,
        room.endpoints⟩, fun _ => by rw [settings_interface interface], ?_, ?_, ?_⟩
    · rw [moreEps, settings_interface interface, behind_new interface new]
      exact fun e es cons => before.few e es cons
    · rw [behind_new interface new]
      rw [List.length_cons]
      omega
    · rw [behind_new interface new]
      refine List.forall_mem_cons.mpr ⟨⟨fits, size, ?_⟩, room.each⟩
      rw [moreEps] at last
      rw [Interface.eps]
      dsimp only at last ⊢
      rw [List.length_nil] at last
      omega

lemma room_endpoint {e : Entry} {es : List Entry} (other : ¬ IsInterface buffer p)
    (endpoint : IsEndpoint buffer p) (entries : t.entries = e :: es) :
    Room buffer start t (p :: ps) ↔
      (e.eps.length < usbMaxEndpoints ∧ p + len buffer p ≤ wTotalLength buffer ∧
        len buffer p ≤ endpointSize) ∧
      Room buffer start ⟨⟨e.desc, e.eps ++ [p]⟩ :: es, t.current⟩ ps := by
  constructor
  · intro room
    obtain ⟨fits, size⟩ := room.endpoints p List.mem_cons_self endpoint
    have last := room.last e es entries
    have few := room.few
    have each := room.each
    rw [moreEps, settings_endpoint other endpoint, behind_endpoint other endpoint entries] at last
    rw [behind_endpoint other endpoint entries] at few each
    rw [entries] at few
    rw [List.cons_append, List.length_cons] at last
    refine ⟨⟨by omega, fits, size⟩, (List.forall_mem_cons.mp room.numbers).2,
      (List.forall_mem_cons.mp room.endpoints).2, nofun, ?_, few, each⟩
    intro e' es' cons
    cases cons
    rw [List.length_append, List.length_singleton, moreEps]
    omega
  · rintro ⟨⟨-, fits, size⟩, room⟩
    have last := room.last _ _ rfl
    have count := room.few
    refine ⟨List.forall_mem_cons.mpr ⟨fun interface => absurd interface other, room.numbers⟩,
      List.forall_mem_cons.mpr ⟨fun _ => ⟨fits, size⟩, room.endpoints⟩,
      fun nil => absurd (nil.symm.trans entries) (List.cons_ne_nil e es).symm, ?_, ?_, ?_⟩
    · intro e' es' cons
      rw [entries] at cons
      cases cons
      rw [moreEps, settings_endpoint other endpoint, behind_endpoint other endpoint entries]
      rw [moreEps] at last
      rw [List.length_append, List.length_singleton] at last
      rw [List.cons_append, List.length_cons]
      omega
    · rw [behind_endpoint other endpoint entries, entries]
      exact count
    · rw [behind_endpoint other endpoint entries]
      exact room.each

lemma room_other (other : ¬ IsInterface buffer p) (other' : ¬ IsEndpoint buffer p) :
    Room buffer start t (p :: ps) ↔ Room buffer start t ps := by
  constructor
  · intro room
    have lead := room.lead
    have last := room.last
    have few := room.few
    have each := room.each
    rw [settings_other other other'] at lead
    rw [moreEps, settings_other other other', behind_other other other'] at last
    rw [behind_other other other'] at few each
    exact ⟨(List.forall_mem_cons.mp room.numbers).2, (List.forall_mem_cons.mp room.endpoints).2,
      lead, last, few, each⟩
  · intro room
    refine ⟨List.forall_mem_cons.mpr ⟨fun interface => absurd interface other, room.numbers⟩,
      List.forall_mem_cons.mpr ⟨fun endpoint => absurd endpoint other', room.endpoints⟩, ?_, ?_,
      ?_, ?_⟩
    · rw [settings_other other other']
      exact room.lead
    · rw [moreEps, settings_other other other', behind_other other other']
      exact room.last
    · rw [behind_other other other']
      exact room.few
    · rw [behind_other other other']
      exact room.each

lemma room_cons (before : t.Kept) : Room buffer start t (p :: ps) ↔
    ∃ t', record buffer start t p = some t' ∧ Room buffer start t' ps := by
  simp only [record_iff]
  constructor
  · intro room
    by_cases interface : IsInterface buffer p
    · by_cases again : (number buffer p : Int) = t.current
      · obtain ⟨inside, rest⟩ := (room_again interface again before).mp room
        exact ⟨t, .again interface inside again, rest⟩
      · obtain ⟨⟨inside, few, fits, size⟩, rest⟩ := (room_new interface again before).mp room
        exact ⟨_, .new interface inside again few fits size, rest⟩
    by_cases endpoint : IsEndpoint buffer p
    · cases entries : t.entries with
      | nil =>
        have lead := room.lead entries
        rw [settings_endpoint interface endpoint] at lead
        cases lead
      | cons e es =>
        obtain ⟨⟨few, fits, size⟩, rest⟩ := (room_endpoint interface endpoint entries).mp room
        exact ⟨_, .endpoint e es interface endpoint entries few fits size, rest⟩
    · exact ⟨t, .other interface endpoint, (room_other interface endpoint).mp room⟩
  · rintro ⟨t', case, room⟩
    cases case with
    | again interface inside again =>
      exact (room_again interface again before).mpr ⟨inside, room⟩
    | new interface inside new few fits size =>
      exact (room_new interface new before).mpr ⟨⟨inside, few, fits, size⟩, room⟩
    | endpoint e es other endpoint cons few fits size =>
      exact (room_endpoint other endpoint cons).mpr ⟨⟨few, fits, size⟩, room⟩
    | other other other' => exact (room_other other other').mpr room

lemma room_nil (before : t.Kept) : Room buffer start t [] :=
  ⟨nofun, nofun, fun _ => rfl, before.few, before.short, nofun⟩

lemma recordAll_some (before : t.Kept) :
    (∃ t', recordAll buffer start t ps = some t') ↔ Room buffer start t ps := by
  induction ps generalizing t with
  | nil => exact iff_of_true ⟨t, rfl⟩ (room_nil before)
  | cons p ps ih =>
    rw [room_cons before, recordAll, List.foldlM_cons]
    cases first : record buffer start t p with
    | none =>
      constructor
      · rintro ⟨t', all⟩
        cases all
      · rintro ⟨t', same, room⟩
        cases same
    | some t1 =>
      have rest := ih ((record_iff.mp first).kept before)
      constructor
      · exact fun all => ⟨t1, rfl, rest.mp all⟩
      · rintro ⟨t', same, room⟩
        cases same
        exact rest.mpr room

lemma recordAll_entries (all : recordAll buffer start t ps = some t') :
    t'.entries = entriesAfter buffer start t ps := by
  induction ps generalizing t with
  | nil =>
    obtain rfl : t = t' := Option.some.inj all
    change t.entries = extend [] t.entries
    cases t.entries with
    | nil => rfl
    | cons e es => rw [extend, List.append_nil]
  | cons p ps ih =>
    rw [recordAll, List.foldlM_cons] at all
    cases first : record buffer start t p with
    | none =>
      rw [first] at all
      cases all
    | some t1 =>
      rw [first] at all
      rw [(record_iff.mp first).after]
      exact ih all

end

/-! ## A block -/

variable {buffer : Bytes}

def noInterface : Table := ⟨[], -1⟩

lemma noInterface_kept : noInterface.Kept := ⟨fun _ => rfl, nofun, Nat.zero_le _⟩

lemma noInterface_after (buffer start : Bytes) (ps : List Nat) :
    entriesAfter buffer start noInterface ps =
      ((blockInterfaces buffer start ps).map Interface.entry).reverse :=
  List.append_nil _

def firstWalk (buffer config : Bytes) : Walk :=
  ⟨firstConfig buffer config, (firstConfig buffer config 0).toNat, -1, -1⟩

lemma firstWalk_sim (buffer config : Bytes) :
    Sim buffer (firstConfig buffer config) (firstWalk buffer config) noInterface where
  few := Nat.zero_le _
  count := by
    change (firstConfig buffer config noOfIf).toNat = 0
    rw [firstConfig, Function.update_self]
    rfl
  ifno := rfl
  current := rfl
  unset _ := rfl
  header _ _ := rfl
  held := trivial
  free _ _ := rfl

lemma fits_iff {start : Bytes} {ps : List Nat} : Fits buffer start ps ↔
    (∀ p ∈ ps, p + 1 < wTotalLength buffer) ∧ Room buffer start noInterface ps := by
  have zero : noInterface.entries.length +
      (behind buffer start noInterface ps).2.length =
        (blockInterfaces buffer start ps).length := zero_add _
  constructor
  · intro fits
    exact ⟨fits.inside, fits.numbers, fits.endpoints, fun _ => fits.lead, nofun,
      zero.symm ▸ fits.few, fits.each⟩
  · rintro ⟨inside, room⟩
    exact ⟨inside, room.numbers, room.endpoints, room.lead rfl, zero ▸ room.few, room.each⟩

lemma usbParseConfig_ok {config : Bytes} {fuel : Nat} {r : Int × Bytes} :
    usbParseConfig fuel buffer config = some (.ok r) ↔ 1 < wTotalLength buffer ∧
      (buffer 1 ≠ usbDtConfig ∧ r = (-1, config) ∨
        buffer 1 = usbDtConfig ∧ len buffer 0 ≤ wTotalLength buffer ∧
          ∃ config', parseLoop buffer fuel (firstWalk buffer config) = some (.ok config') ∧
            r = (1, config')) := by
  rw [usbParseConfig]
  by_cases inside : 1 < wTotalLength buffer
  · rw [readByte_ok inside, and_iff_right inside]
    dsimp only
    by_cases other : buffer 1 ≠ usbDtConfig
    · rw [if_pos other, and_iff_right other, or_iff_left fun both => other both.1, Option.some_inj,
        Except.ok.injEq]
      exact eq_comm
    have same := not_not.mp other
    rw [if_neg other, or_iff_right fun both => other both.1, and_iff_right same]
    by_cases fits : len buffer 0 ≤ wTotalLength buffer
    · have small : len buffer 0 ≤ configSize :=
        Nat.le_trans (Nat.le_of_lt_succ (buffer 0).toNat_lt) (by decide)
      rw [copyDescriptor_ok (by rwa [zero_add]) small, and_iff_right fits]
      change Option.map _ (parseLoop buffer fuel (firstWalk buffer config)) = _ ↔ _
      cases parseLoop buffer fuel (firstWalk buffer config) with
      | none => exact iff_of_false nofun nofun
      | some done =>
        cases done with
        | error => exact iff_of_false nofun nofun
        | ok config' =>
          rw [Option.map_some, Except.map, Option.some_inj, Except.ok.injEq]
          constructor
          · rintro rfl
            exact ⟨config', rfl, rfl⟩
          · rintro ⟨_, same, rfl⟩
            cases same
            rfl
    · have wrong : ¬ (0 + len buffer 0 ≤ wTotalLength buffer ∧ len buffer 0 ≤ configSize) := by
        rw [zero_add]
        exact fun both => fits both.1
      obtain ⟨fault, error⟩ := @copyDescriptor_error buffer config 0 configSize 0 wrong
      rw [error]
      exact iff_of_false nofun fun both => fits both.1
  · rw [readByte_error (Nat.not_lt.mp inside)]
    exact iff_of_false nofun fun both => inside both.1

lemma usbParseConfig_ends (buffer config : Bytes) :
    (∃ fuel r, usbParseConfig fuel buffer config = some (.ok r)) ↔ BlockFits buffer config := by
  have sim := firstWalk_sim buffer config
  constructor
  · rintro ⟨fuel, r, run⟩
    obtain ⟨inside, ⟨other, -⟩ | ⟨-, fits, config', loop, -⟩⟩ := usbParseConfig_ok.mp run
    · exact ⟨inside, fun same => absurd same other⟩
    · obtain ⟨t', ps, ⟨walk, places, room⟩, -⟩ := parseLoop_fitting sim loop
      refine ⟨inside, fun _ => ⟨fits, ps, walk, fits_iff.mpr ⟨places, ?_⟩⟩⟩
      exact (recordAll_some noInterface_kept).mp ⟨t', room⟩
  · rintro ⟨inside, block⟩
    by_cases other : buffer 1 ≠ usbDtConfig
    · exact ⟨0, _, usbParseConfig_ok.mpr ⟨inside, .inl ⟨other, rfl⟩⟩⟩
    have same := not_not.mp other
    obtain ⟨fits, ps, walk, all⟩ := block same
    obtain ⟨places, room⟩ := fits_iff.mp all
    obtain ⟨t', recorded⟩ := (recordAll_some noInterface_kept).mpr room
    obtain ⟨fuel, config', loop⟩ := parseLoop_ends ⟨walk, places, recorded⟩ sim rfl
    exact ⟨fuel, _, usbParseConfig_ok.mpr ⟨inside, .inr ⟨same, fits, config', loop, rfl⟩⟩⟩

/-! ## Well-formed blocks -/

lemma Descriptors.unique {total index : Nat} {ps ps' : List Nat}
    (walk : Descriptors buffer total index ps) (walk' : Descriptors buffer total index ps') :
    ps = ps' := by
  induction walk generalizing ps' with
  | done ended => cases walk' with
    | done => rfl
    | stop more => omega
    | next more => omega
  | stop more interface endpoint zero => cases walk' with
    | done ended => omega
    | stop => rfl
    | next _ long => exact absurd zero long
  | next more long _ ih => cases walk' with
    | done ended => omega
    | stop _ _ _ zero => exact absurd zero long
    | next _ _ rest => rw [ih rest]

lemma settings_desc {ps : List Nat} {s : Setting} (member : s ∈ (settings buffer ps).2) :
    s.desc ∈ ps ∧ IsInterface buffer s.desc := by
  induction ps with
  | nil => cases member
  | cons p ps ih =>
    have later (there : s ∈ (settings buffer ps).2) :
        s.desc ∈ p :: ps ∧ IsInterface buffer s.desc :=
      ⟨List.mem_cons_of_mem p (ih there).1, (ih there).2⟩
    by_cases interface : IsInterface buffer p
    · rw [settings_interface interface] at member
      rcases List.mem_cons.mp member with rfl | there
      · exact ⟨List.mem_cons_self, interface⟩
      · exact later there
    · by_cases endpoint : IsEndpoint buffer p
      · rw [settings_endpoint interface endpoint] at member
        exact later member
      · rw [settings_other interface endpoint] at member
        exact later member

lemma interfaces_first {start : Bytes} {k : Nat} {current : Int} {ss : List Setting} {x : Interface}
    (member : x ∈ (interfaces buffer start k current ss).2) : x.first ∈ ss := by
  induction ss generalizing k current with
  | nil => cases member
  | cons s ss ih =>
    rw [interfaces] at member
    split at member
    case isTrue => exact List.mem_cons_of_mem s (ih member)
    case isFalse =>
      rcases List.mem_cons.mp member with rfl | later
      · exact List.mem_cons_self
      · exact List.mem_cons_of_mem s (ih later)

lemma AllHeld.at_index {config : Bytes} {entries : List Entry}
    (held : AllHeld buffer config entries.reverse) {k : Nat} {e : Entry}
    (found : entries[k]? = some e) : Held buffer config k e := by
  induction entries using List.reverseRecOn with
  | nil => cases found
  | append_singleton es e' ih =>
    rw [List.reverse_append, List.reverse_singleton, List.singleton_append] at held
    rw [List.getElem?_append] at found
    split at found
    case isTrue => exact ih held.2 found
    case isFalse later =>
      rw [List.getElem?_singleton] at found
      split at found
      case isTrue zero =>
        obtain rfl : e' = e := Option.some.inj found
        obtain rfl : k = es.length := by omega
        have last := held.1
        rwa [List.length_reverse] at last
      case isFalse => cases found

section
variable {buffer config : Bytes} {ps : List Nat}
  (block : WellFormed buffer (firstConfig buffer config) ps)
include block

lemma WellFormed.header {a : Nat} (low : a < 9) : firstConfig buffer config a = buffer a := by
  have long : (buffer 0).toNat = 9 := block.config
  rw [firstConfig, Function.update_of_ne (by unfold noOfIf; omega), long,
    copied_inside _ _ _ _ _ (Nat.zero_le a) (by omega)]
  congr 1
  omega

lemma WellFormed.walk_loop : Descriptors buffer (wTotalLength (firstConfig buffer config))
    (firstWalk buffer config).index ps := by
  have total : wTotalLength (firstConfig buffer config) = wTotalLength buffer := by
    rw [wTotalLength, block.header (by decide), block.header (by decide)]
    rfl
  have index : (firstWalk buffer config).index = 9 := by
    change (firstConfig buffer config 0).toNat = 9
    rw [block.header (by decide)]
    exact block.config
  rw [total, index]
  exact block.walk

lemma WellFormed.recording {fuel : Nat} {r : Int × Bytes}
    (run : usbParseConfig fuel buffer config = some (.ok r)) :
    Recording buffer (firstConfig buffer config) r.2 ps := by
  obtain ⟨-, ⟨other, -⟩ | ⟨-, -, config', loop, rfl⟩⟩ := usbParseConfig_ok.mp run
  · exact absurd block.type other
  obtain ⟨t', ps', ⟨walk, -, room⟩, w, rfl, sim⟩ :=
    parseLoop_fitting (firstWalk_sim buffer config) loop
  obtain rfl := walk.unique block.walk_loop
  have entries := recordAll_entries room
  rw [noInterface_after] at entries
  have held := sim.held
  have count := sim.count
  rw [entries] at held count
  rw [List.length_reverse, List.length_map] at count
  have each {k : Nat} {x : Interface}
      (found : (blockInterfaces buffer (firstConfig buffer config) ps')[k]? = some x) :
      Held buffer w.config k x.entry :=
    held.at_index (by rw [List.getElem?_map, found]; rfl)
  refine ⟨count, fun k x found => each found, ?_⟩
  intro v visit
  obtain ⟨i, interface, visit⟩ := List.mem_flatMap.mp visit
  obtain ⟨ii, endpoint, rfl⟩ := List.mem_map.mp visit
  have below : i < (w.config 4).toNat := List.mem_range.mp interface
  have below' : ii < (w.config (ifDesc i + 4)).toNat := List.mem_range.mp endpoint
  rw [sim.header 4 (by decide), block.header (by decide), ← block.count] at below
  obtain ⟨x, found⟩ : ∃ x, (blockInterfaces buffer (firstConfig buffer config) ps')[i]? =
      some x := ⟨_, List.getElem?_eq_getElem below⟩
  have first := interfaces_first (List.mem_of_getElem? found)
  obtain ⟨member, is_interface⟩ := settings_desc first
  have long := block.interface_len _ member is_interface
  have copy : w.config (ifDesc i + 4) = buffer (x.first.desc + 4) :=
    (each found).desc 4 (by change 4 < min 9 (len buffer x.first.desc); omega)
  rw [copy, ← block.endpoints _ first] at below'
  exact ⟨x, found, below'⟩

end

theorem usbParseConfig_sound_iff (buffer config : Bytes) :
    Sound buffer config ↔ BlockFits buffer config := by
  rw [← usbParseConfig_ends]
  exact ⟨fun sound => sound.ends,
    fun ends => ⟨ends, fun ps block fuel r run => block.recording run⟩⟩

def twoEndpoints : Bytes := fun a =>
  [9, 2, 32, 0, 1, 1, 0, 0x80, 50, 9, 4, 0, 0, 2, 8, 6, 80, 0, 7, 5, 0x81, 2, 64, 0, 0, 7, 5, 2, 2,
    64, 0, 0].getD a 0

example : WellFormed twoEndpoints (firstConfig twoEndpoints fun _ => 0) [9, 18, 25] where
  config := rfl
  type := rfl
  walk := .next (by decide) (by decide) (.next (by decide) (by decide) (.next (by decide)
    (by decide) (.done (by decide))))
  whole := by decide
  interface_len := by decide
  endpoint_len := by decide
  lead := by decide
  endpoints := by decide
  count := by decide

def endpointFirst : Bytes := fun a =>
  [9, 2, 16, 0, 0, 1, 0, 0x80, 50, 7, 5, 0x81, 2, 64, 0, 0].getD a 0

theorem endpointFirst_outside : ¬ Sound endpointFirst fun _ => 0 := by
  rintro ⟨⟨fuel, r, run⟩, -⟩
  cases fuel with
  | zero => cases run
  | succ fuel => cases run

end ParseConfig
