import UBoot.Net.Arp
import UBoot.Lib.Runs

/-!
# Which hardware address a datagram carries

Over any order of commands and ARP replies. `NetServerEther` is shared by all
protocols, and all but one clear it when they start.
-/

namespace ArpLearned

open Arp Runs

def UnicastDatagram (f : Frame) : Prop :=
  (∃ dport sport, f.protocol = .udp dport sport) ∧ f.ipDst ≠ bcastIP

/-- The frame carries an address learned in this command, of its destination or of the gateway it
goes through. -/
def Learned (earlier : List Observed) (command : Nat) (s : Settings) (f : Frame) : Prop :=
  ∃ ip, .learned command ip f.etDest ∈ earlier ∧
    (ip = f.ipDst ∨ offSubnet s f.ipDst ∧ ip = s.netOurGatewayIP)

def WellAddressed : List Observed → Prop
  | [] => True
  | .learned _ _ _ :: earlier => WellAddressed earlier
  | .sent command s f :: earlier =>
    (UnicastDatagram f → Learned earlier command s f) ∧ WellAddressed earlier

def serialOf : Observed → Option Nat
  | .learned _ _ _ => none
  | .sent _ _ f => some f.serial

def serials (wire : List Observed) : List Nat := wire.filterMap serialOf

structure Good (wire : List Observed) : Prop where
  addressed : WellAddressed wire
  once : (serials wire).Nodup

@[simp] theorem serials_learned (command : Nat) (ip : IPaddr) (ether : Ether) (wire : List Observed) :
    serials (.learned command ip ether :: wire) = serials wire := rfl

@[simp] theorem serials_sent (command : Nat) (s : Settings) (f : Frame) (wire : List Observed) :
    serials (.sent command s f :: wire) = f.serial :: serials wire := rfl

/-- What the parked packet is, while an ARP reply is awaited. -/
structure Parked (n : Net) (c : Command) (mac : MacPtr) (f : Frame) : Prop where
  packet : n.netArpWaitTxPacket = some f
  dest : n.netArpWaitPacketIP = f.ipDst
  hop : n.netArpWaitReplyIP = nextHop n.settings f.ipDst
  old : f.serial < n.serial
  unsent : f.serial ∉ serials n.wire
  server : mac = .netServerEther → (serverOf n.settings c).map newStyle = some f.ipDst

def Known (n : Net) (c : Command) : Prop :=
  ∀ server, serverOf n.settings c = some server → newStyle server ≠ bcastIP →
    n.netServerEther ≠ netEtherNullAddr →
    .learned n.commands (nextHop n.settings (newStyle server)) n.netServerEther ∈ n.wire

structure Inv (n : Net) : Prop where
  numbered : ∀ i ∈ serials n.wire, i < n.serial
  past : ∀ command ip ether, .learned command ip ether ∈ n.wire → command ≤ n.commands
  waiting : ∀ c mac, n.command = some c → n.netArpWaitPacketIP ≠ 0 →
    n.netArpWaitPacketMAC = some mac → ∃ f, Parked n c mac f
  known : ∀ c, n.command = some c → Known n c

variable {f : Frame} {n : Net} {c : Command}

lemma nextHop_cases (s : Settings) (ip : IPaddr) :
    nextHop s ip = ip ∨ offSubnet s ip ∧ nextHop s ip = s.netOurGatewayIP := by
  unfold nextHop
  split_ifs with hoff hgate
  · exact .inl rfl
  · exact .inr ⟨hoff, rfl⟩
  · exact .inl rfl

lemma learned_of_hop {earlier : List Observed} {command : Nat} {s : Settings}
    (h : .learned command (nextHop s f.ipDst) f.etDest ∈ earlier) : Learned earlier command s f :=
  ⟨_, h, nextHop_cases s f.ipDst⟩

lemma ethSend_good (good : Good n.wire) (unsent : f.serial ∉ serials n.wire)
    (addressed : UnicastDatagram f → Learned n.wire n.commands n.settings f) :
    Good (ethSend n f).wire :=
  ⟨⟨addressed, good.addressed⟩, List.nodup_cons.mpr ⟨unsent, good.once⟩⟩

lemma park_inv {mac : MacPtr} (inv : Inv n) (running : n.command = some c)
    (hserial : f.serial = n.serial)
    (server : mac = .netServerEther → (serverOf n.settings c).map newStyle = some f.ipDst) :
    Inv (park { n with serial := n.serial + 1 } mac f) := by
  refine ⟨fun i hi => Nat.lt_succ_of_lt (inv.numbered i hi), inv.past, ?_, inv.known⟩
  rintro c' mac' hc - hmac
  obtain rfl := Option.some.inj (running.symm.trans hc)
  cases hmac
  refine ⟨f, rfl, rfl, rfl, ?_, ?_, server⟩
  · exact hserial ▸ Nat.lt_succ_self _
  · exact fun hmem => absurd (inv.numbered _ hmem) (hserial ▸ Nat.lt_irrefl _)

lemma Inv.untouched (inv : Inv n) (handler : Handler) (ping : Ether) (tries : Nat) :
    Inv { n with packetHandler := handler, pingMac := ping, netArpWaitTry := tries } := by
  refine ⟨inv.numbered, inv.past, ?_, inv.known⟩
  intro c mac hc hip hmac
  obtain ⟨f, hf⟩ := inv.waiting c mac hc hip hmac
  exact ⟨f, hf.packet, hf.dest, hf.hop, hf.old, hf.unsent, hf.server⟩

lemma transmit_keeps (inv : Inv n) (good : Good n.wire) (running : n.command = some c)
    (dport sport : Nat) (payload : List UInt8) :
    Inv (transmit n c dport sport payload) ∧
      Good (transmit n c dport sport payload).wire := by
  unfold transmit
  cases hserver : serverOf n.settings c with
  | none => exact ⟨inv, good⟩
  | some server =>
    unfold netSendUDPPacket
    dsimp only
    by_cases hnull : (if newStyle server = bcastIP then netBcastAddr else n.netServerEther) =
        netEtherNullAddr
    · rw [if_pos hnull]
      refine ⟨park_inv inv running rfl (fun _ => ?_), good⟩
      rw [hserver, Option.map_some]
    rw [if_neg hnull]
    have hunsent : n.serial ∉ serials n.wire :=
      fun hmem => absurd (inv.numbered _ hmem) (Nat.lt_irrefl _)
    constructor
    · refine ⟨?_, ?_, ?_, ?_⟩
      · intro i hi
        rcases List.mem_cons.mp hi with rfl | hi
        · exact Nat.lt_succ_self _
        · exact Nat.lt_succ_of_lt (inv.numbered i hi)
      · intro command ip ether hmem
        rcases List.mem_cons.mp hmem with heq | hmem
        · cases heq
        · exact inv.past command ip ether hmem
      · intro c' mac hc hip hmac
        obtain ⟨f, hf⟩ := inv.waiting c' mac hc hip hmac
        refine ⟨f, hf.packet, hf.dest, hf.hop, Nat.lt_succ_of_lt hf.old, ?_, hf.server⟩
        intro hmem
        rcases List.mem_cons.mp hmem with heq | hmem
        · exact absurd hf.old (heq ▸ Nat.lt_irrefl _)
        · exact hf.unsent hmem
      · intro c' hc server' hs hb hn
        exact List.mem_cons_of_mem _ (inv.known c' hc server' hs hb hn)
    · refine ethSend_good (n := { n with serial := n.serial + 1 }) good hunsent ?_
      rintro ⟨-, hunicast⟩
      have hdst : newStyle server ≠ bcastIP := hunicast
      rw [if_neg hdst] at hnull
      refine learned_of_hop ?_
      simp only [if_neg hdst]
      exact inv.known c running server hserver hdst hnull

def EtherCleared (n : Net) (s : Settings) : Command → Prop
  | .dns => newStyle s.netOurDNSIP ≠ bcastIP → n.netServerEther = netEtherNullAddr
  | _ => True

lemma zeroServerEther_inv (inv : Inv n) : Inv (zeroServerEther n) := by
  refine ⟨inv.numbered, inv.past, ?_, fun c _ server _ _ hne => absurd rfl hne⟩
  intro c mac hc hip hmac
  obtain ⟨f, hf⟩ := inv.waiting c mac hc hip hmac
  exact ⟨f, hf.packet, hf.dest, hf.hop, hf.old, hf.unsent, hf.server⟩

lemma start_keeps (inv : Inv n) (good : Good n.wire) (running : n.command = some c)
    (dport sport : Nat) (payload : List UInt8) :
    Inv (start n c dport sport payload) ∧ Good (start n c dport sport payload).wire := by
  have hkeep := inv.untouched .protocol n.pingMac n.netArpWaitTry
  cases c with
  | tftp bootFile =>
    exact transmit_keeps (zeroServerEther_inv hkeep) good running dport sport payload
  | nfs bootFile =>
    exact transmit_keeps (zeroServerEther_inv hkeep) good running dport sport payload
  | sntp server =>
    exact transmit_keeps (zeroServerEther_inv hkeep) good running dport sport payload
  | dns => exact transmit_keeps hkeep good running dport sport payload
  | ping ip =>
    exact ⟨park_inv (inv.untouched .protocol netEtherNullAddr n.netArpWaitTry) running rfl
      (fun h => nomatch h), good⟩

lemma start_fresh (numbered : ∀ i ∈ serials n.wire, i < n.serial)
    (past : ∀ command ip ether, .learned command ip ether ∈ n.wire → command ≤ n.commands)
    (idle : n.netArpWaitPacketIP = 0) (cleared : EtherCleared n n.settings c) (good : Good n.wire)
    (running : n.command = some c) (dport sport : Nat) (payload : List UInt8) :
    Inv (start n c dport sport payload) ∧ Good (start n c dport sport payload).wire := by
  have hinv : ∀ m : Net, m.command = some c → m.wire = n.wire → m.serial = n.serial →
      m.commands = n.commands → m.netArpWaitPacketIP = 0 → Known m c → Inv m := by
    rintro m hc hwire hserial hcommands hip hknown
    refine ⟨hwire ▸ hserial ▸ numbered, hwire ▸ hcommands ▸ past, fun _ _ _ h => absurd hip h, ?_⟩
    intro c' hc'
    obtain rfl := Option.some.inj (hc.symm.trans hc')
    exact hknown
  have hzero := hinv (zeroServerEther n) running rfl rfl rfl idle
    (fun _ _ _ hne => absurd rfl hne)
  cases c with
  | tftp bootFile => exact start_keeps hzero good running dport sport payload
  | nfs bootFile => exact start_keeps hzero good running dport sport payload
  | sntp server => exact start_keeps hzero good running dport sport payload
  | dns =>
    refine start_keeps (hinv n running rfl rfl rfl idle ?_) good running dport sport payload
    intro server hserver hbcast hne
    cases hserver
    exact absurd (cleared hbcast) hne
  | ping ip =>
    exact start_keeps (hinv n running rfl rfl rfl idle (fun _ h => nomatch h)) good running dport
      sport payload

def OwnEther (n : Net) : Event → Prop
  | .command s c _ _ _ => n.command = none → netCheckPrereq s c → EtherCleared n s c
  | _ => True

lemma netLoop_exact (inv : Inv n) (good : Good n.wire) (idle : n.command = none) (s : Settings)
    (c : Command) (dport sport : Nat) (payload : List UInt8) :
    (OwnEther n (.command s c dport sport payload) ↔ Good (netLoop n s c dport sport payload).wire) ∧
      (Good (netLoop n s c dport sport payload).wire →
        Inv (netLoop n s c dport sport payload)) := by
  unfold netLoop
  by_cases hprereq : netCheckPrereq s c
  · rw [if_pos hprereq]
    have hpast : ∀ command ip ether, .learned command ip ether ∈ n.wire →
        command ≤ n.commands + 1 :=
      fun command ip ether h => Nat.le_succ_of_le (inv.past command ip ether h)
    have hstart := fun cleared => start_fresh (c := c)
      (n := { n with netArpWaitPacketMAC := none, netArpWaitPacketIP := 0, netArpWaitReplyIP := 0,
                     settings := s, commands := n.commands + 1, command := some c })
      inv.numbered hpast rfl cleared good rfl dport sport payload
    by_cases hcleared : EtherCleared n s c
    · obtain ⟨hinv, hgood⟩ := hstart hcleared
      exact ⟨⟨fun _ => hgood, fun _ _ _ => hcleared⟩, fun _ => hinv⟩
    -- the first packet goes to the address another command left
    cases c with
    | dns =>
      obtain ⟨hunicast, hstale⟩ := Classical.not_imp.mp hcleared
      have hnot : ¬ Good (start { n with
          netArpWaitPacketMAC := none, netArpWaitPacketIP := 0, netArpWaitReplyIP := 0,
          settings := s, commands := n.commands + 1, command := some .dns } .dns dport sport
          payload).wire := by
        intro hgood
        have hsent := hgood.addressed
        simp only [start, transmit, serverOf, netSendUDPPacket, if_neg hunicast, if_neg hstale,
          ethSend, WellAddressed] at hsent
        obtain ⟨ip, hmem, -⟩ := hsent.1 ⟨⟨dport, sport, rfl⟩, hunicast⟩
        exact absurd (inv.past _ _ _ hmem) (Nat.not_succ_le_self _)
      exact ⟨⟨fun h => absurd (h idle hprereq) hcleared, fun h => absurd h hnot⟩,
        fun h => absurd h hnot⟩
    | _ => exact absurd trivial hcleared
  · rw [if_neg hprereq]
    refine ⟨⟨fun _ => good, fun _ _ h => absurd h hprereq⟩, fun _ => ?_⟩
    refine ⟨inv.numbered, fun command ip ether h => Nat.le_succ_of_le (inv.past command ip ether h),
      ?_, ?_⟩
    · intro c' mac hc
      cases idle.symm.trans hc
    · intro c' hc
      cases idle.symm.trans hc

lemma arpReply_eq (parked : n.netArpWaitTxPacket = some f) (mac : MacPtr) (p : Packet) :
    arpReply n mac p =
      { setMac n mac p.senderEther with
        netArpWaitPacketIP := 0, netArpWaitPacketMAC := none,
        wire := .sent n.commands n.settings { f with etDest := p.senderEther } ::
          .learned n.commands p.senderIP p.senderEther :: n.wire } := by
  cases mac <;> simp [arpReply, setMac, parked, ethSend]

lemma arpReply_keeps {mac : MacPtr} {p : Packet} (inv : Inv n) (good : Good n.wire)
    (running : n.command = some c) (parked : Parked n c mac f)
    (sender : p.senderIP = n.netArpWaitReplyIP) :
    Inv (arpReply n mac p) ∧ Good (arpReply n mac p).wire := by
  have hhop : p.senderIP = nextHop n.settings f.ipDst := sender.trans parked.hop
  rw [arpReply_eq parked.packet]
  constructor
  · have hsame : ∀ {m : Net}, m.serial = n.serial → m.commands = n.commands →
        m.netArpWaitPacketIP = 0 → (∀ c, m.command = some c → Known m c) →
        m.wire = .sent n.commands n.settings { f with etDest := p.senderEther } ::
          .learned n.commands p.senderIP p.senderEther :: n.wire → Inv m := by
      intro m hserial hcommands hip hknown hwire
      refine ⟨?_, ?_, fun _ _ _ h => absurd hip h, hknown⟩
      · rw [hwire, hserial]
        intro i hi
        rcases List.mem_cons.mp hi with rfl | hi
        · exact parked.old
        · exact inv.numbered i hi
      · rw [hwire, hcommands]
        intro command ip ether hmem
        rcases List.mem_cons.mp hmem with heq | hmem
        · cases heq
        rcases List.mem_cons.mp hmem with heq | hmem
        · cases heq
          exact Nat.le_refl _
        · exact inv.past command ip ether hmem
    cases mac with
    | netServerEther =>
      refine hsame rfl rfl rfl ?_ rfl
      intro c' hc server hserver _ _
      obtain rfl := Option.some.inj (running.symm.trans hc)
      have hdst := parked.server rfl
      rw [show serverOf n.settings c = some server from hserver, Option.map_some] at hdst
      obtain hdst := Option.some.inj hdst
      refine List.mem_cons_of_mem _ (List.mem_cons.mpr (.inl ?_))
      rw [hhop, ← hdst]
      rfl
    | pingMac =>
      refine hsame rfl rfl rfl ?_ rfl
      intro c' hc server hserver hbcast hne
      exact List.mem_cons_of_mem _ (List.mem_cons_of_mem _
        (inv.known c' hc server hserver hbcast hne))
  · refine ⟨⟨fun _ => ?_, good.addressed⟩, List.nodup_cons.mpr ⟨parked.unsent, good.once⟩⟩
    exact learned_of_hop (hhop ▸ List.mem_cons_self)

lemma arpInput_keeps (inv : Inv n) (good : Good n.wire) (running : n.command = some c)
    (p : Packet) :
    Inv (arpInput n p) ∧ Good (arpInput n p).wire := by
  unfold arpInput
  cases hmac : n.netArpWaitPacketMAC with
  | none => split_ifs <;> exact ⟨inv, good⟩
  | some mac =>
    split_ifs with hformat htarget hop hip hsender
    · exact ⟨inv, good⟩
    · exact ⟨inv, good⟩
    · exact ⟨inv, good⟩
    · exact ⟨inv, good⟩
    · obtain ⟨f, hparked⟩ := inv.waiting c mac running hip hmac
      exact arpReply_keeps inv good running hparked hsender
    · exact ⟨inv, good⟩

lemma finish_inv (inv : Inv n) : Inv { n with command := none } :=
  ⟨inv.numbered, inv.past, fun _ _ h => (nomatch h), fun _ h => (nomatch h)⟩

lemma netStartAgain_inv (inv : Inv n) (again : Again) : Inv (netStartAgain n again) := by
  cases again with
  | fail => exact finish_inv inv
  | wait => exact inv.untouched .startAgain n.pingMac n.netArpWaitTry
  | now => exact inv

lemma netStartAgain_wire (n : Net) (again : Again) : (netStartAgain n again).wire = n.wire := by
  cases again <;> rfl

lemma arpTimeoutCheck_keeps (inv : Inv n) (good : Good n.wire) (again : Again) :
    Inv (arpTimeoutCheck n again) ∧ Good (arpTimeoutCheck n again).wire := by
  unfold arpTimeoutCheck
  split_ifs with hip
  · exact ⟨inv, good⟩
  · refine ⟨netStartAgain_inv (inv.untouched n.packetHandler n.pingMac 0) again, ?_⟩
    rw [netStartAgain_wire]
    exact good
  · refine ⟨⟨inv.numbered, inv.past, ?_, inv.known⟩, good⟩
    intro c' mac hc _ hmac
    obtain ⟨f, hf⟩ := inv.waiting c' mac hc hip hmac
    exact ⟨f, hf.packet, hf.dest, congrArg (nextHop n.settings) hf.dest, hf.old, hf.unsent, hf.server⟩

lemma step_ne_none (n : Net) (e : Event) : step n e ≠ none := by
  unfold step
  split
  case h_3 =>
    split_ifs
    · exact Option.some_ne_none _
    · exact Option.some_ne_none _
  all_goals exact Option.some_ne_none _

lemma step_exact {t : Net} {e : Event} (inv : Inv n) (good : Good n.wire) (h : step n e = some t)
    : (OwnEther n e ↔ Good t.wire) ∧ (Good t.wire → Inv t) := by
  have hkeeps : ∀ {e : Event} {u : Net}, OwnEther n e → Inv u ∧ Good u.wire →
      (OwnEther n e ↔ Good u.wire) ∧ (Good u.wire → Inv u) :=
    fun own ⟨hinv, hgood⟩ => ⟨⟨fun _ => hgood, fun _ => own⟩, fun _ => hinv⟩
  cases hc : n.command with
  | none =>
    cases e with
    | command s c dport sport payload =>
      simp only [step, hc] at h
      cases h
      exact netLoop_exact inv good hc s c dport sport payload
    | _ =>
      simp only [step, hc] at h
      cases h
      exact hkeeps trivial ⟨inv, good⟩
  | some c =>
    cases e with
    | command s c' dport sport payload =>
      simp only [step, hc] at h
      cases h
      exact hkeeps (fun hnone => nomatch hc.symm.trans hnone) ⟨inv, good⟩
    | arp p =>
      simp only [step, hc] at h
      cases h
      exact hkeeps trivial (arpInput_keeps inv good hc p)
    | reply dport sport payload =>
      simp only [step, hc] at h
      split_ifs at h
      · cases h
        exact hkeeps trivial (transmit_keeps inv good hc dport sport payload)
      · cases h
        exact hkeeps trivial ⟨inv, good⟩
    | arpTimeout again =>
      simp only [step, hc] at h
      cases h
      exact hkeeps trivial (arpTimeoutCheck_keeps inv good again)
    | startAgain again =>
      simp only [step, hc] at h
      cases h
      exact hkeeps trivial ⟨netStartAgain_inv inv again, (netStartAgain_wire n again).symm ▸ good⟩
    | restart dport sport payload =>
      simp only [step, hc] at h
      cases h
      exact hkeeps trivial (start_keeps inv good hc dport sport payload)
    | finish =>
      simp only [step, hc] at h
      cases h
      exact hkeeps trivial ⟨finish_inv inv, good⟩

def atPrompt (n : Net) : Net := { n with command := none, wire := [] }

/-- In every state of a run all datagrams carry an address learned in their command for their next
hop, and no packet has been sent twice, if and only if no DNS request starts with an address that
another command left. -/
theorem datagrams_addressed_iff (n : Net) (events : List Event) :
    StepsMeet step OwnEther (atPrompt n) events ↔
      ∀ done todo, events = done ++ todo → ∀ t, runFrom step (atPrompt n) done = some t →
        Good t.wire := by
  have hgood : Good (atPrompt n).wire := ⟨trivial, List.nodup_nil⟩
  have hinv : Inv (atPrompt n) := by
    refine ⟨?_, ?_, fun _ _ h => (nomatch h), fun _ h => (nomatch h)⟩
    · exact fun i hi => absurd hi List.not_mem_nil
    · exact fun _ _ _ h => absurd h List.not_mem_nil
  refine stepsMeet_iff (fun s => Good s.wire → Inv s) ?_ ?_ ?_ (fun _ => hinv) hgood events
  · exact fun s e _ hstuck => absurd hstuck (step_ne_none s e)
  · exact fun s e t inv good h => (step_exact (inv good) good h).1
  · exact fun s e t inv good h => (step_exact (inv good) good h).2

def twoServers : Settings := ⟨0x0a000005, 0, 0xffffff00, 0x0a000001, 0x0a000002⟩

def powerOn : Net :=
  ⟨twoServers, 0, 0, 0, 0, none, none, 0, none, .protocol, 0, 0, []⟩

def serverReply : Packet := ⟨1, 0x0800, 6, 4, 2, 0x020000000001, 0x0a000001, 0x0a000005⟩

/-- After a transfer from 10.0.0.1 the query to 10.0.0.2 goes to the hardware address of 10.0.0.1,
and no ARP reply has come in that command. -/
theorem dns_query_to_tftp_server :
    ∃ t, runFrom step (atPrompt powerOn) [.command twoServers (.tftp none) 69 1024 [], .arp serverReply,
        .finish, .command twoServers .dns 53 1025 []] = some t ∧
      t.wire.head? = some (.sent 2 twoServers
        ⟨0x020000000001, 0x0a000002, .udp 53 1025, [], 1⟩) ∧ ¬ Good t.wire := by
  refine ⟨_, rfl, rfl, fun hgood => ?_⟩
  obtain ⟨ip, hmem, -⟩ := hgood.addressed.1 ⟨⟨53, 1025, rfl⟩, by decide⟩
  rcases List.mem_cons.mp hmem with heq | hmem
  · cases heq
  rcases List.mem_cons.mp hmem with heq | hmem
  · cases heq
  · exact absurd hmem List.not_mem_nil

end ArpLearned
