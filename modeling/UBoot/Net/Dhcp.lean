import Mathlib.Data.List.Induction
import UBoot.Lib.ByteMemory
import UBoot.Lib.Runs

/-!
# The DHCP client (net/bootp.c)

Packets are checked in `BootpCheckPkt` and then handled by state; a timeout sends a
new request with a new transaction id. Addresses and ids are in host byte order.
`none` is a search for the message type that never meets the end of the options.
-/

namespace Dhcp

open ByteMemory

inductive DhcpState where
  | init
  | initReboot
  | rebooting
  | selecting
  | requesting
  | rebinding
  | bound
  | renewing
  deriving DecidableEq

inductive NetLoop where
  | goesOn
  | restart
  | success
  | fail
  deriving DecidableEq

inductive Loader where
  | tftp
  | nfs
  deriving DecidableEq

/-- Compile-time options, and the `autoload` variable. -/
structure Config where
  bootfilePrefix : Option (List UInt8)
  bootpServerip : Bool
  cmdNfs : Bool
  autoload : Option (List UInt8)

/-- The static variables of the client, and what it tells the network loop; `requests` counts the
calls of `BootpRequest`. -/
structure Client where
  dhcpState : DhcpState
  bootpID : Nat
  bootpTry : Nat
  netOurEther : Mem
  netOurIP : Nat
  netServerIP : Nat
  netServerEther : List UInt8
  netOurSubnetMask : Nat
  netOurGatewayIP : Nat
  netOurDNSIP : Nat
  netOurHostName : List UInt8
  netOurRootPath : List UInt8
  dhcpLeasetime : Nat
  netDHCPServerIP : Nat
  bootFile : List UInt8
  netState : NetLoop
  loader : Option Loader
  requests : Nat

/-- A UDP packet, with the sender of its frame. -/
structure Packet where
  pkt : Mem
  dest : Nat
  src : Nat
  len : Nat
  etSrc : List UInt8

def timeoutCount : Nat := 5
def portBootps : Nat := 67
def portBootpc : Nat := 68
def bootpVendorMagic : Nat := 0x63825363
def opBootrequest : Nat := 1
def opBootreply : Nat := 2
def hwtEther : Nat := 1
def hwlEther : Nat := 6
def dhcpOffer : Nat := 2
def dhcpAck : Nat := 5
def dhcpNak : Nat := 6

def bootpHdrSize : Nat := 548
def optSize : Nat := 312

def bpOp (m : Mem) : Nat := (m 0).toNat
def bpHtype (m : Mem) : Nat := (m 1).toNat
def bpHlen (m : Mem) : Nat := (m 2).toNat
def bpId (m : Mem) : Nat := be32 m 4
def bpYiaddr (m : Mem) : Nat := be32 m 16
def bpSiaddr (m : Mem) : Nat := be32 m 20
def bpFile : Nat := 108
def bpFileSize : Nat := 128
def bpVend : Nat := 236

/-- `BootpCheckPkt`; 0 lets the packet through. -/
def bootpCheckPkt (s : Client) (p : Packet) : Int :=
  if p.dest ≠ portBootpc ∨ p.src ≠ portBootps then -1
  else if p.len < bootpHdrSize - optSize then -2
  else if bpOp p.pkt ≠ opBootrequest ∧ bpOp p.pkt ≠ opBootreply ∧ bpOp p.pkt ≠ dhcpOffer ∧
      bpOp p.pkt ≠ dhcpAck ∧ bpOp p.pkt ≠ dhcpNak then -3
  else if bpHtype p.pkt ≠ hwtEther then -4
  else if bpHlen p.pkt ≠ hwlEther then -5
  else if bpId p.pkt ≠ s.bootpID then -6
  else 0

def truncateSz (maxlen curlen : Nat) : Nat := if maxlen ≤ curlen then maxlen - 1 else curlen

/-- One option at `popt`; the vendor's boot file goes into the packet. -/
def dhcpOption (s : Client) (m : Mem) (popt : Nat) : Client × Mem :=
  let oplen := (m (popt + 1)).toNat
  match (m popt).toNat with
  | 1 => ({ s with netOurSubnetMask := be32 m (popt + 2) }, m)
  | 3 => ({ s with netOurGatewayIP := be32 m (popt + 2) }, m)
  | 6 => ({ s with netOurDNSIP := be32 m (popt + 2) }, m)
  | 12 => ({ s with netOurHostName := slice m (popt + 2) (truncateSz 32 oplen) }, m)
  | 17 => ({ s with netOurRootPath := slice m (popt + 2) (truncateSz 64 oplen) }, m)
  | 51 => ({ s with dhcpLeasetime := be32 m (popt + 2) }, m)
  | 54 => ({ s with netDHCPServerIP := be32 m (popt + 2) }, m)
  | 67 =>
    let size := truncateSz bpFileSize oplen
    if m bpFile = 0 ∧ 0 < size then
      (s, store (blit m bpFile (slice m (popt + 2) size)) (bpFile + size) 0)
    else (s, m)
  | _ => (s, m)

/-- The loop of `DhcpOptionsProcess`; every option takes two bytes or more. -/
def dhcpOptionsLoop : Nat → Nat → Client → Mem → Client × Mem
  | 0, _, s, m => (s, m)
  | fuel + 1, popt, s, m =>
    if popt < bpVend + 4 + bootpHdrSize ∧ m popt ≠ 0xff then
      let r := dhcpOption s m popt
      dhcpOptionsLoop fuel (popt + (m (popt + 1)).toNat + 2) r.1 r.2
    else (s, m)

/-- `DhcpOptionsProcess`, when the options begin with the magic number. -/
def dhcpOptionsProcess (s : Client) (m : Mem) : Client × Mem :=
  if be32 m bpVend = bootpVendorMagic then dhcpOptionsLoop bootpHdrSize (bpVend + 4) s m else (s, m)

/-- The scan of `DhcpMessageType`; `some none` is its -1. -/
def messageTypeLoop (m : Mem) : Nat → Nat → Option (Option Nat)
  | 0, _ => none
  | fuel + 1, popt =>
    if m popt = 0xff then some none
    else if m popt = 53 then some (some (m (popt + 2)).toNat)
    else messageTypeLoop m fuel (popt + (m (popt + 1)).toNat + 2)

/-- `DhcpMessageType`; the scan is not bounded by the packet, only by the address space. -/
def dhcpMessageType (m : Mem) : Option (Option Nat) :=
  if be32 m bpVend ≠ bootpVendorMagic then some none else messageTypeLoop m (2 ^ 31) (bpVend + 4)

/-- `copy_filename`: up to the end of the string or a quotation mark. -/
def copyFilename (m : Mem) (src size : Nat) : List UInt8 :=
  let quoted : Bool := m src = 34
  let name := if quoted then slice m (src + 1) (size - 2) else slice m src (size - 1)
  name.takeWhile (fun b => b ≠ 0 ∧ b ≠ 34)

def bootpCopyNetParams (c : Config) (s : Client) (m : Mem) (etSrc : List UInt8) : Client :=
  let s := { s with netOurIP := bpYiaddr m }
  let s := if c.bootpServerip then s
    else { s with netServerIP := if bpSiaddr m ≠ 0 then bpSiaddr m else s.netServerIP,
                  netServerEther := etSrc }
  if m bpFile ≠ 0 then { s with bootFile := copyFilename m bpFile bpFileSize } else s

/-- `BootpRequest`: state SELECTING and a transaction id from the address and the clock. -/
def bootpRequest (s : Client) (timer : Nat) : Client :=
  { s with dhcpState := .selecting, bootpTry := s.bootpTry + 1,
           bootpID := (be32 s.netOurEther 2 + timer) % 2 ^ 32, requests := s.requests + 1 }

/-- `BootpTimeout`; `again` is what `NetStartAgain` makes of `NetState`. -/
def bootpTimeout (s : Client) (timer : Nat) (again : NetLoop) : Client :=
  if timeoutCount ≤ s.bootpTry then { s with netState := again } else bootpRequest s timer

def prefixMatches (c : Config) (m : Mem) : Bool :=
  match c.bootfilePrefix with
  | none => true
  | some pre => slice m bpFile pre.length = pre

def autoload (c : Config) (s : Client) : Client :=
  match c.autoload with
  | none => { s with loader := some .tftp }
  | some v =>
    if v.head? = some 110 then { s with netState := .success }
    else if c.cmdNfs ∧ v = [78, 70, 83] then { s with loader := some .nfs }
    else { s with loader := some .tftp }

def dhcpHandler (c : Config) (s : Client) (p : Packet) : Option Client :=
  if bootpCheckPkt s p ≠ 0 then some s
  else match s.dhcpState with
    | .selecting =>
      if prefixMatches c p.pkt then
        some (dhcpOptionsProcess { s with dhcpState := .requesting } p.pkt).1
      else some s
    | .requesting => (dhcpMessageType p.pkt).map fun type =>
      if type = some dhcpAck then
        let r := dhcpOptionsProcess s p.pkt
        autoload c { bootpCopyNetParams c r.1 r.2 p.etSrc with dhcpState := .bound }
      else s
    | _ => some s

end Dhcp

/-!
## When the DHCP client binds an address

The packets that move the client from SELECTING to BOUND, over any run of packets
and timeouts after a `BootpRequest`.
-/

namespace DhcpBound

open ByteMemory Dhcp Runs

variable {s t : Client}

inductive Event where
  | packet (p : Packet)
  | timeout (timer : Nat) (again : NetLoop)

def step (c : Config) (s : Client) : Event → Option Client
  | .packet p => dhcpHandler c s p
  | .timeout timer again => some (bootpTimeout s timer again)

/-- The packet that moves the client on from SELECTING; its message type is not looked at. -/
structure TakesOffer (c : Config) (s : Client) (p : Packet) : Prop where
  selecting : s.dhcpState = .selecting
  checked : bootpCheckPkt s p = 0
  file : prefixMatches c p.pkt = true

structure TakesAck (s : Client) (p : Packet) : Prop where
  requesting : s.dhcpState = .requesting
  checked : bootpCheckPkt s p = 0
  type : dhcpMessageType p.pkt = some (some dhcpAck)

structure SameLease (s t : Client) : Prop where
  dhcpState : t.dhcpState = s.dhcpState
  bootpID : t.bootpID = s.bootpID
  netOurIP : t.netOurIP = s.netOurIP
  requests : t.requests = s.requests

lemma SameLease.refl (s : Client) : SameLease s s := ⟨rfl, rfl, rfl, rfl⟩

lemma SameLease.trans {u : Client} (h : SameLease s t) (k : SameLease t u) :
    SameLease s u :=
  ⟨k.dhcpState.trans h.dhcpState, k.bootpID.trans h.bootpID, k.netOurIP.trans h.netOurIP,
    k.requests.trans h.requests⟩

lemma checked_id {p : Packet} (h : bootpCheckPkt s p = 0) :
    bpId p.pkt = s.bootpID := by
  unfold bootpCheckPkt at h
  split_ifs at h with _ _ _ _ _ hid
  exact not_not.mp hid

lemma dhcpOption_spec (s : Client) (m : Mem) (popt : Nat) :
    SameLease s (dhcpOption s m popt).1 ∧ ∀ i, i < bpFile → (dhcpOption s m popt).2 i = m i := by
  unfold dhcpOption
  dsimp only
  split
  case h_8 =>
    split_ifs
    · refine ⟨.refl s, fun i hi => ?_⟩
      exact (store_other _ _ (by omega)).trans (blit_before _ _ hi)
    · exact ⟨.refl s, fun _ _ => rfl⟩
  all_goals exact ⟨⟨rfl, rfl, rfl, rfl⟩, fun _ _ => rfl⟩

lemma dhcpOptionsLoop_spec (fuel popt : Nat) (s : Client) (m : Mem) :
    SameLease s (dhcpOptionsLoop fuel popt s m).1 ∧
      ∀ i, i < bpFile → (dhcpOptionsLoop fuel popt s m).2 i = m i := by
  induction fuel generalizing popt s m with
  | zero => exact ⟨.refl s, fun _ _ => rfl⟩
  | succ fuel ih =>
    unfold dhcpOptionsLoop
    split_ifs
    · obtain ⟨hlease, hmem⟩ := dhcpOption_spec s m popt
      obtain ⟨hlease', hmem'⟩ := ih (popt + (m (popt + 1)).toNat + 2) (dhcpOption s m popt).1
        (dhcpOption s m popt).2
      exact ⟨hlease.trans hlease', fun i hi => (hmem' i hi).trans (hmem i hi)⟩
    · exact ⟨.refl s, fun _ _ => rfl⟩

lemma dhcpOptionsProcess_spec (s : Client) (m : Mem) :
    SameLease s (dhcpOptionsProcess s m).1 ∧ bpYiaddr (dhcpOptionsProcess s m).2 = bpYiaddr m := by
  unfold dhcpOptionsProcess
  split_ifs
  · obtain ⟨hlease, hmem⟩ := dhcpOptionsLoop_spec bootpHdrSize (bpVend + 4) s m
    refine ⟨hlease, ?_⟩
    have hfile : bpFile = 108 := rfl
    simp only [bpYiaddr, be32, be16]
    rw [hmem 16 (by omega), hmem 17 (by omega), hmem 18 (by omega), hmem 19 (by omega)]
  · exact ⟨.refl s, rfl⟩

variable {c : Config}

lemma autoload_lease (c : Config) (s : Client) : SameLease s (autoload c s) := by
  unfold autoload
  split
  · exact ⟨rfl, rfl, rfl, rfl⟩
  · split_ifs
    all_goals exact ⟨rfl, rfl, rfl, rfl⟩

lemma bootpCopyNetParams_spec (c : Config) (s : Client) (m : Mem) (etSrc : List UInt8) :
    (bootpCopyNetParams c s m etSrc).netOurIP = bpYiaddr m ∧
      (bootpCopyNetParams c s m etSrc).bootpID = s.bootpID ∧
      (bootpCopyNetParams c s m etSrc).requests = s.requests := by
  unfold bootpCopyNetParams
  split_ifs
  all_goals exact ⟨rfl, rfl, rfl⟩

/-- `t` differs from `s` in the lease as taking an offer makes it. -/
structure Selected (s t : Client) : Prop where
  requesting : t.dhcpState = .requesting
  bootpID : t.bootpID = s.bootpID
  netOurIP : t.netOurIP = s.netOurIP
  requests : t.requests = s.requests

structure Acked (s t : Client) (p : Packet) : Prop where
  bound : t.dhcpState = .bound
  bootpID : t.bootpID = s.bootpID
  netOurIP : t.netOurIP = bpYiaddr p.pkt
  requests : t.requests = s.requests

lemma offer_spec (c : Config) (s : Client) (p : Packet) (selecting : s.dhcpState = .selecting)
    (checked : bootpCheckPkt s p = 0) (h : dhcpHandler c s p = some t) :
    SameLease s t ∨ TakesOffer c s p ∧ Selected s t := by
  simp only [dhcpHandler, checked, ne_eq, not_true_eq_false, if_false, selecting] at h
  by_cases hfile : prefixMatches c p.pkt = true
  · rw [if_pos hfile] at h
    cases h
    obtain ⟨hlease, -⟩ := dhcpOptionsProcess_spec { s with dhcpState := .requesting } p.pkt
    exact .inr ⟨⟨selecting, checked, hfile⟩, hlease.dhcpState, hlease.bootpID, hlease.netOurIP,
      hlease.requests⟩
  · rw [if_neg hfile] at h
    exact .inl (Option.some.inj h ▸ .refl s)

lemma ack_spec (c : Config) (s : Client) (p : Packet) (requesting : s.dhcpState = .requesting)
    (checked : bootpCheckPkt s p = 0) (h : dhcpHandler c s p = some t) :
    SameLease s t ∨ TakesAck s p ∧ Acked s t p := by
  simp only [dhcpHandler, checked, ne_eq, not_true_eq_false, if_false, requesting] at h
  obtain ⟨type, htype, h⟩ := Option.map_eq_some_iff.mp h
  by_cases hack : type = some dhcpAck
  · rw [if_pos hack] at h
    obtain rfl := h
    obtain ⟨hlease, hyiaddr⟩ := dhcpOptionsProcess_spec s p.pkt
    obtain ⟨hip, hid, hrequests⟩ := bootpCopyNetParams_spec c (dhcpOptionsProcess s p.pkt).1
      (dhcpOptionsProcess s p.pkt).2 p.etSrc
    refine .inr ⟨⟨requesting, checked, hack ▸ htype⟩, ?_, ?_, ?_, ?_⟩
    · exact (autoload_lease c _).dhcpState
    · exact (autoload_lease c _).bootpID.trans (hid.trans hlease.bootpID)
    · exact (autoload_lease c _).netOurIP.trans (hip.trans hyiaddr)
    · exact (autoload_lease c _).requests.trans (hrequests.trans hlease.requests)
  · rw [if_neg hack] at h
    exact .inl (h ▸ .refl s)

lemma step_cases {e : Event} (h : step c s e = some t) :
    SameLease s t ∨ (∃ p, e = .packet p ∧ TakesOffer c s p ∧ Selected s t) ∨
      (∃ p, e = .packet p ∧ TakesAck s p ∧ Acked s t p) ∨ ∃ timer, t = bootpRequest s timer := by
  cases e with
  | timeout timer again =>
    cases h
    unfold bootpTimeout
    split_ifs
    · exact .inl ⟨rfl, rfl, rfl, rfl⟩
    · exact .inr (.inr (.inr ⟨timer, rfl⟩))
  | packet p =>
    change dhcpHandler c s p = some t at h
    by_cases hcheck : bootpCheckPkt s p = 0
    · by_cases hselecting : s.dhcpState = .selecting
      · rcases offer_spec c s p hselecting hcheck h with hlease | htakes
        · exact .inl hlease
        · exact .inr (.inl ⟨p, rfl, htakes⟩)
      by_cases hrequesting : s.dhcpState = .requesting
      · rcases ack_spec c s p hrequesting hcheck h with hlease | htakes
        · exact .inl hlease
        · exact .inr (.inr (.inl ⟨p, rfl, htakes⟩))
      -- In the other states the handler only reports.
      rw [dhcpHandler, if_neg (not_not.mpr hcheck)] at h
      split at h
      · contradiction
      · contradiction
      · exact .inl (Option.some.inj h ▸ .refl s)
    · rw [dhcpHandler, if_pos hcheck] at h
      exact .inl (Option.some.inj h ▸ .refl s)

/-- `request` is what the last `BootpRequest` of the run left, and `since` the events after it. -/
structure LastRequest (c : Config) (start s : Client) (done since : List Event)
    (request : Client) : Prop where
  sends : ∃ r timer, request = bootpRequest r timer
  reached : ∃ sent, done = sent ++ since ∧ runFrom (step c) start sent = some request
  arrives : runFrom (step c) request since = some s
  bootpID : s.bootpID = request.bootpID
  requests : s.requests = request.requests

/-- One of the events after `request` was taken as the offer. -/
def OfferTaken (c : Config) (request : Client) (since : List Event) : Prop :=
  ∃ pre offer post u, since = pre ++ .packet offer :: post ∧
    runFrom (step c) request pre = some u ∧ TakesOffer c u offer ∧
    bpId offer.pkt = request.bootpID

lemma LastRequest.extend {start request : Client} {done since : List Event} {e : Event}
    (h : LastRequest c start s done since request) (hstep : step c s e = some t)
    (hid : t.bootpID = s.bootpID) (hrequests : t.requests = s.requests) :
    LastRequest c start t (done ++ [e]) (since ++ [e]) request := by
  obtain ⟨sent, rfl, hsent⟩ := h.reached
  exact ⟨h.sends, ⟨sent, List.append_assoc .., hsent⟩, runFrom_concat.mpr ⟨s, h.arrives, hstep⟩,
    hid.trans h.bootpID, hrequests.trans h.requests⟩

lemma OfferTaken.extend {request : Client} {since : List Event} {e : Event}
    (h : OfferTaken c request since) : OfferTaken c request (since ++ [e]) := by
  obtain ⟨pre, offer, post, u, rfl, htaken⟩ := h
  exact ⟨pre, offer, post ++ [e], u, by simp, htaken⟩

lemma requesting_after_offer {s0 : Client} {timer : Nat} {done : List Event}
    (h : runFrom (step c) (bootpRequest s0 timer) done = some s) :
    ∃ since request, LastRequest c (bootpRequest s0 timer) s done since request ∧
      (s.dhcpState = .requesting → OfferTaken c request since) := by
  induction done using List.reverseRecOn generalizing s with
  | nil =>
    cases h
    refine ⟨[], bootpRequest s0 timer, ⟨⟨s0, timer, rfl⟩, ⟨[], rfl, rfl⟩, rfl, rfl, rfl⟩, ?_⟩
    intro hstate
    cases hstate
  | append_singleton done e ih =>
    obtain ⟨r, hr, hstep⟩ := runFrom_concat.mp h
    obtain ⟨since, request, hlast, hoffer⟩ := ih hr
    rcases step_cases hstep with hlease | ⟨p, rfl, htakes, hselected⟩ |
      ⟨p, rfl, htakes, hacked⟩ | ⟨timer, rfl⟩
    · refine ⟨_, _, hlast.extend hstep hlease.bootpID hlease.requests, fun hstate => ?_⟩
      exact (hoffer (hlease.dhcpState.symm.trans hstate)).extend
    · refine ⟨_, _, hlast.extend hstep hselected.bootpID hselected.requests, fun _ => ?_⟩
      exact ⟨since, p, [], r, rfl, hlast.arrives, htakes,
        (checked_id htakes.checked).trans hlast.bootpID⟩
    · refine ⟨_, _, hlast.extend hstep hacked.bootpID hacked.requests, fun hstate => ?_⟩
      cases hacked.bound.symm.trans hstate
    · refine ⟨[], _, ⟨⟨r, timer, rfl⟩, ⟨_, (List.append_nil _).symm, h⟩, rfl, rfl, rfl⟩, ?_⟩
      intro hstate
      cases hstate

/-- The step that moves the client to BOUND, or copies an address into `NetOurIP`, takes a DHCPACK
in REQUESTING; since the last `BootpRequest` a packet was taken in SELECTING, whatever its message
type, and both carry the transaction id of that request. -/
theorem bound_after_offer_and_ack {c : Config} {s0 s t : Client} {timer : Nat}
    {done : List Event} {e : Event}
    (before : runFrom (step c) (bootpRequest s0 timer) done = some s)
    (after : step c s e = some t)
    (binds : (t.dhcpState = .bound ∧ s.dhcpState ≠ .bound) ∨ t.netOurIP ≠ s.netOurIP) :
    ∃ ack since request, e = .packet ack ∧ TakesAck s ack ∧ Acked s t ack ∧
      LastRequest c (bootpRequest s0 timer) s done since request ∧
      bpId ack.pkt = request.bootpID ∧ OfferTaken c request since := by
  rcases step_cases after with hlease | ⟨p, -, -, hselected⟩ | ⟨ack, rfl, htakes, hacked⟩ |
    ⟨timer, rfl⟩
  · rcases binds with ⟨hbound, hnot⟩ | hip
    · exact absurd (hlease.dhcpState.symm.trans hbound) hnot
    · exact absurd hlease.netOurIP hip
  · rcases binds with ⟨hbound, -⟩ | hip
    · cases hselected.requesting.symm.trans hbound
    · exact absurd hselected.netOurIP hip
  · obtain ⟨since, request, hlast, hoffer⟩ := requesting_after_offer before
    exact ⟨ack, since, request, rfl, htakes, hacked, hlast,
      (checked_id htakes.checked).trans hlast.bootpID, hoffer htakes.requesting⟩
  · rcases binds with ⟨hbound, -⟩ | hip
    · cases hbound
    · exact absurd rfl hip

/-- A client that has not started, with a zero hardware address: the transaction id of its first
request is the clock. -/
def idle : Client :=
  ⟨.init, 0, 0, fun _ => 0, 0, 0, [], 0, 0, 0, [], [], 0, 0, [], .goesOn, none, 0⟩

/-- No file name prefix; the boot file comes by TFTP. -/
def plain : Config := ⟨none, false, false, none⟩

def reply (options : List UInt8) : Packet :=
  ⟨ofBytes ([2, 1, 6, 0, 0, 0, 0, 1, 0, 0, 0, 0, 0, 0, 0, 0, 10, 0, 0, 2] ++ List.replicate 216 0 ++
    [0x63, 0x82, 0x53, 0x63] ++ options), 68, 67, 548, [2, 0, 0, 0, 0, 1]⟩

/-- Options without a message type, and those of a DHCPOFFER and a DHCPACK. -/
def untyped : Packet := reply [0xff]
def offer : Packet := reply [53, 1, 2, 0xff]
def ack : Packet := reply [53, 1, 5, 0xff]

theorem bound_after_offer_and_ack_plain :
    ∃ s t, runFrom (step plain) (bootpRequest idle 1) [.packet offer] = some s ∧
      step plain s (.packet ack) = some t ∧ ∃ p since request, .packet ack = Event.packet p ∧
      TakesAck s p ∧ Acked s t p ∧
      LastRequest plain (bootpRequest idle 1) s [.packet offer] since request ∧
      bpId p.pkt = request.bootpID ∧ OfferTaken plain request since := by
  refine ⟨_, _, rfl, rfl, ?_⟩
  exact bound_after_offer_and_ack rfl rfl (Or.inl ⟨rfl, by decide⟩)

/-- A reply without a message type takes the place of the offer. -/
theorem untyped_reply_taken_as_offer :
    ∃ s t, runFrom (step plain) (bootpRequest idle 1) [.packet untyped] = some s ∧
      step plain s (.packet ack) = some t ∧ s.dhcpState ≠ .bound ∧ t.dhcpState = .bound ∧
      t.netOurIP = 0x0a000002 ∧
      ∀ p ∈ [untyped, ack], dhcpMessageType p.pkt ≠ some (some dhcpOffer) := by
  refine ⟨_, _, rfl, rfl, by decide, rfl, rfl, ?_⟩
  intro p hp
  rcases List.mem_pair.mp hp with rfl | rfl
  all_goals decide

end DhcpBound
