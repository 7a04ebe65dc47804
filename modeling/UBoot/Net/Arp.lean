import Mathlib.Data.List.Basic

/-!
# Sending and address resolution (net/net.c)

`NetSendUDPPacket` with its parked packet, `ArpRequest`, the ARP branch of
`NetReceive`, and the commands that use them. What `NetInitLoop` reads from the
environment is given with each command: nothing in these commands changes it, so a
restart finds it as it was. ARP frames of our own are not recorded.
-/

namespace Arp

abbrev Ether := BitVec 48
abbrev IPaddr := BitVec 32

def netEtherNullAddr : Ether := 0
def netBcastAddr : Ether := 0xffffffffffff

def bcastIP : IPaddr := 0xffffffff

structure Settings where
  netOurIP : IPaddr
  netOurGatewayIP : IPaddr
  netOurSubnetMask : IPaddr
  netServerIP : IPaddr
  netOurDNSIP : IPaddr
  deriving DecidableEq

/-- The argument of `NetLoop`; a boot file name may begin with the server's address. -/
inductive Command where
  | tftp (bootFile : Option IPaddr)
  | nfs (bootFile : Option IPaddr)
  | sntp (netNtpServerIP : IPaddr)
  | dns
  | ping (netPingIP : IPaddr)
  deriving DecidableEq

inductive Protocol where
  | udp (dport sport : Nat)
  | icmp
  deriving DecidableEq

structure Frame where
  etDest : Ether
  ipDst : IPaddr
  protocol : Protocol
  payload : List UInt8
  serial : Nat
  deriving DecidableEq

inductive MacPtr where
  | netServerEther
  | pingMac
  deriving DecidableEq

/-- What happens on the wire: an address taken from an ARP reply, and a packet sent; each with
the number of the command it belongs to. -/
inductive Observed where
  | learned (command : Nat) (ip : IPaddr) (ether : Ether)
  | sent (command : Nat) (settings : Settings) (frame : Frame)
  deriving DecidableEq

inductive Handler where
  | protocol
  | startAgain
  deriving DecidableEq

/-- The globals of net.c. The last three count commands and packets, and record the wire, the
latest first. -/
structure Net where
  settings : Settings
  netServerEther : Ether
  pingMac : Ether
  netArpWaitPacketIP : IPaddr
  netArpWaitReplyIP : IPaddr
  netArpWaitPacketMAC : Option MacPtr
  netArpWaitTxPacket : Option Frame
  netArpWaitTry : Nat
  command : Option Command
  packetHandler : Handler
  commands : Nat
  serial : Nat
  wire : List Observed

def ethSend (n : Net) (f : Frame) : Net :=
  { n with wire := .sent n.commands n.settings f :: n.wire }

def offSubnet (s : Settings) (ip : IPaddr) : Prop :=
  ip &&& s.netOurSubnetMask ≠ s.netOurIP &&& s.netOurSubnetMask

instance (s : Settings) (ip : IPaddr) : Decidable (offSubnet s ip) :=
  inferInstanceAs (Decidable (_ ≠ _))

/-- Whose hardware address `ArpRequest` asks for. -/
def nextHop (s : Settings) (ip : IPaddr) : IPaddr :=
  if offSubnet s ip then if s.netOurGatewayIP = 0 then ip else s.netOurGatewayIP else ip

def arpRequest (n : Net) : Net :=
  { n with netArpWaitReplyIP := nextHop n.settings n.netArpWaitPacketIP }

def park (n : Net) (mac : MacPtr) (f : Frame) : Net :=
  arpRequest { n with netArpWaitPacketIP := f.ipDst, netArpWaitPacketMAC := some mac,
                      netArpWaitTxPacket := some f, netArpWaitTry := 1 }

def newStyle (dest : IPaddr) : IPaddr := if dest = 0 then bcastIP else dest

def netSendUDPPacket (n : Net) (dest : IPaddr) (dport sport : Nat) (payload : List UInt8) : Net :=
  let dest := newStyle dest
  let ether := if dest = bcastIP then netBcastAddr else n.netServerEther
  let frame : Frame := ⟨ether, dest, .udp dport sport, payload, n.serial⟩
  let n := { n with serial := n.serial + 1 }
  if ether = netEtherNullAddr then park n .netServerEther frame else ethSend n frame

def pingSend (n : Net) (netPingIP : IPaddr) (payload : List UInt8) : Net :=
  park { n with pingMac := netEtherNullAddr, serial := n.serial + 1 } .pingMac
    ⟨netEtherNullAddr, netPingIP, .icmp, payload, n.serial⟩

/-- `TftpServerIP` and its like; a ping has no UDP server. -/
def serverOf (s : Settings) : Command → Option IPaddr
  | .tftp bootFile | .nfs bootFile => some (bootFile.getD s.netServerIP)
  | .sntp server => some server
  | .dns => some s.netOurDNSIP
  | .ping _ => none

/-- A UDP packet from the running protocol to its server. -/
def transmit (n : Net) (c : Command) (dport sport : Nat) (payload : List UInt8) : Net :=
  match serverOf n.settings c with
  | some server => netSendUDPPacket n server dport sport payload
  | none => n

/-- "zero out server ether in case the server ip has changed". -/
def zeroServerEther (n : Net) : Net := { n with netServerEther := netEtherNullAddr }

/-- `TftpStart`, `NfsStart`, `SntpStart`, `DnsStart` and `PingStart`, from where they set their
handler; the first packet has the given ports and payload. -/
def start (n : Net) (c : Command) (dport sport : Nat) (payload : List UInt8) : Net :=
  let n := { n with packetHandler := .protocol }
  match c with
  | .tftp _ | .nfs _ | .sntp _ => transmit (zeroServerEther n) c dport sport payload
  | .dns => transmit n c dport sport payload
  | .ping ip => pingSend n ip payload

/-- `net_check_prereq`; our own hardware address is set. -/
def netCheckPrereq (s : Settings) : Command → Prop
  | .ping ip => ip ≠ 0 ∧ s.netOurIP ≠ 0
  | .sntp server => server ≠ 0 ∧ s.netOurIP ≠ 0
  | .dns => s.netOurDNSIP ≠ 0 ∧ s.netOurIP ≠ 0
  | .nfs _ | .tftp _ => s.netServerIP ≠ 0 ∧ s.netOurIP ≠ 0

instance (s : Settings) (c : Command) : Decidable (netCheckPrereq s c) := by
  cases c <;> exact inferInstanceAs (Decidable (_ ∧ _))

/-- The head of `NetLoop`, to the call of the start function. -/
def netLoop (n : Net) (s : Settings) (c : Command) (dport sport : Nat) (payload : List UInt8) : Net :=
  let n := { n with netArpWaitPacketMAC := none, netArpWaitPacketIP := 0, netArpWaitReplyIP := 0,
                    settings := s, commands := n.commands + 1 }
  if netCheckPrereq s c then start { n with command := some c } c dport sport payload else n

structure Packet where
  hrd : Nat
  pro : Nat
  hln : Nat
  pln : Nat
  op : Nat
  senderEther : Ether
  senderIP : IPaddr
  targetIP : IPaddr

def arpEther : Nat := 1
def protIP : Nat := 0x0800
def arpopReply : Nat := 2

def setMac (n : Net) (ptr : MacPtr) (ether : Ether) : Net :=
  match ptr with
  | .netServerEther => { n with netServerEther := ether }
  | .pingMac => { n with pingMac := ether }

/-- The ARP reply we wait for: keep the address, transmit the parked packet, no request pending. -/
def arpReply (n : Net) (mac : MacPtr) (p : Packet) : Net :=
  let n := setMac n mac p.senderEther
  let n := { n with wire := .learned n.commands p.senderIP p.senderEther :: n.wire }
  let n := match n.netArpWaitTxPacket with
    | some f => ethSend n { f with etDest := p.senderEther }
    | none => n
  { n with netArpWaitPacketIP := 0, netArpWaitPacketMAC := none }

/-- The case PROT_ARP of `NetReceive`; a request is answered, which changes nothing here. -/
def arpInput (n : Net) (p : Packet) : Net :=
  if p.hrd ≠ arpEther ∨ p.pro ≠ protIP ∨ p.hln ≠ 6 ∨ p.pln ≠ 4 then n
  else if n.settings.netOurIP = 0 ∨ p.targetIP ≠ n.settings.netOurIP then n
  else if p.op ≠ arpopReply then n
  else if n.netArpWaitPacketIP = 0 then n
  else match n.netArpWaitPacketMAC with
    | none => n
    | some mac => if p.senderIP = n.netArpWaitReplyIP then arpReply n mac p else n

def arpTimeoutCount : Nat := 5

/-- `NetStartAgain`: give up, wait before the restart, or restart at once. -/
inductive Again where
  | fail
  | wait
  | now

def netStartAgain (n : Net) : Again → Net
  | .fail => { n with command := none }
  | .wait => { n with packetHandler := .startAgain }
  | .now => n

/-- `ArpTimeoutCheck`, when the timer has run out. -/
def arpTimeoutCheck (n : Net) (again : Again) : Net :=
  if n.netArpWaitPacketIP = 0 then n
  else if arpTimeoutCount ≤ n.netArpWaitTry + 1 then netStartAgain { n with netArpWaitTry := 0 } again
  else arpRequest { n with netArpWaitTry := n.netArpWaitTry + 1 }

/-- What `NetLoop` reacts to. `reply` is a further packet of TFTP or NFS, from their handler or
their timeout; the other protocols send only when they start. -/
inductive Event where
  | command (s : Settings) (c : Command) (dport sport : Nat) (payload : List UInt8)
  | arp (p : Packet)
  | reply (dport sport : Nat) (payload : List UInt8)
  | arpTimeout (again : Again)
  | startAgain (again : Again)
  | restart (dport sport : Nat) (payload : List UInt8)
  | finish

def answers : Command → Bool
  | .tftp _ | .nfs _ => true
  | _ => false

def step (n : Net) (e : Event) : Option Net :=
  match n.command, e with
  | none, .command s c dport sport payload => some (netLoop n s c dport sport payload)
  | some _, .arp p => some (arpInput n p)
  | some c, .reply dport sport payload =>
    if answers c ∧ n.packetHandler = .protocol then some (transmit n c dport sport payload) else some n
  | some _, .arpTimeout again => some (arpTimeoutCheck n again)
  | some _, .startAgain again => some (netStartAgain n again)
  | some c, .restart dport sport payload => some (start n c dport sport payload)
  | some _, .finish => some { n with command := none }
  | _, _ => some n

end Arp
