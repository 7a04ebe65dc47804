import UBoot.Lib.ByteMemory
import UBoot.Lib.NumberText

/-!
# The TFTP client (net/tftp.c)

The configured client: no multicast, no transfer size option, images go to RAM.
`ulong` and `unsigned` have 32 bits. Progress marks on the console are left out.
-/

namespace Tftp

open ByteMemory NumberText

inductive State where
  | rrq
  | data
  | tooLarge
  | badMagic
  | oack
  deriving DecidableEq

/-- NETLOOP_CONTINUE, NETLOOP_SUCCESS, and what `NetStartAgain` leaves. -/
inductive NetState where
  | running
  | success
  | startAgain
  deriving DecidableEq

inductive Sent where
  | rrq (blksize : Nat)
  | ack (block : Nat)
  | error (code : Nat) (text : String)
  deriving DecidableEq

structure Config where
  timeoutCount : Nat
  rrqTimeoutCountMax : Nat

structure Client where
  ourPort : Nat
  serverPort : Nat
  state : State
  blkSize : Nat
  blkSizeOption : Nat
  block : Nat
  lastBlock : Nat
  blockWrap : Nat
  blockWrapOffset : Nat
  timeoutCount : Nat
  timeoutCountMax : Nat
  loadAddr : Nat
  mem : Mem
  netBootFileXferSize : Nat
  netState : NetState
  sent : List Sent

def ulongMax : Nat := 2 ^ 32

def sequenceSize : Nat := 2 ^ 16

def tftpSend (c : Client) : Client :=
  match c.state with
  | .rrq => { c with sent := c.sent ++ [.rrq c.blkSizeOption] }
  | .oack | .data => { c with sent := c.sent ++ [.ack (c.block % sequenceSize)] }
  | .tooLarge => { c with sent := c.sent ++ [.error 3 "File too large"] }
  | .badMagic => { c with sent := c.sent ++ [.error 2 "File has bad magic"] }

def netStartAgain (c : Client) : Client := { c with netState := .startAgain }

/-- `unsigned` arithmetic on the block number, `ulong` on the sum. -/
def blockOffset (c : Client) (block : Nat) : Nat :=
  (block * c.blkSize + c.blockWrapOffset) % ulongMax

def storeBlock (c : Client) (block : Nat) (src : List UInt8) : Client :=
  let offset := blockOffset c block
  let newsize := (offset + src.length) % ulongMax
  { c with mem := blit c.mem ((c.loadAddr + offset) % ulongMax) src,
           netBootFileXferSize := max c.netBootFileXferSize newsize }

def acceptBlock (cfg : Config) (c : Client) (data : List UInt8) : Client :=
  if c.block = c.lastBlock then c
  else
    let c := { c with lastBlock := c.block, timeoutCountMax := cfg.timeoutCount }
    let c := tftpSend (storeBlock c ((c.block + ulongMax - 1) % ulongMax) data)
    if data.length < c.blkSize then { c with netState := .success } else c

def countWrap (c : Client) : Client :=
  if c.block = 0 then
    { c with blockWrap := (c.blockWrap + 1) % ulongMax,
             blockWrapOffset := (c.blockWrapOffset + c.blkSize * sequenceSize) % ulongMax }
  else c

def handleData (cfg : Config) (c : Client) (block src : Nat) (data : List UInt8) : Client :=
  let c := countWrap { c with block := block }
  if c.state = .rrq ∨ c.state = .oack then
    let c := { c with state := .data, serverPort := src, lastBlock := 0, blockWrap := 0,
                      blockWrapOffset := 0 }
    if c.block ≠ 1 then netStartAgain c else acceptBlock cfg c data
  else acceptBlock cfg c data

-- "blksize" and its NUL
def blksizeText : List UInt8 := [98, 108, 107, 115, 105, 122, 101, 0]

def parseOack (blkSize : Nat) : List UInt8 → Nat
  | [] => blkSize
  | b :: rest =>
    let found := if 8 < (b :: rest).length ∧ (b :: rest).take 8 = blksizeText
      then (simpleStrtoul ((b :: rest).drop 8) 10).1.toNat % sequenceSize else blkSize
    parseOack found rest

def handleOack (c : Client) (src : Nat) (pkt : List UInt8) : Client :=
  tftpSend { c with state := .oack, serverPort := src, blkSize := parseOack c.blkSize pkt }

def be16 (hi lo : UInt8) : Nat := hi.toNat * 256 + lo.toNat

/-- `TftpHandler (pkt, dest, src, len)`, where `pkt` is the `len` bytes. -/
def tftpHandler (cfg : Config) (c : Client) (pkt : List UInt8) (dest src : Nat) : Client :=
  if dest ≠ c.ourPort then c
  else if c.state ≠ .rrq ∧ src ≠ c.serverPort then c
  else match pkt with
    | hi :: lo :: body =>
      if be16 hi lo = 6 then handleOack c src body
      else if be16 hi lo = 3 then
        match body with
        | bhi :: blo :: data => handleData cfg c (be16 bhi blo) src data
        | _ => c
      else if be16 hi lo = 5 then netStartAgain c
      else c
    | _ => c

def tftpTimeout (c : Client) : Client :=
  let c := { c with timeoutCount := c.timeoutCount + 1 }
  if c.timeoutCount > c.timeoutCountMax then netStartAgain c else tftpSend c

/-- `TftpStart`, from where it sets the handler. -/
def tftpStart (cfg : Config) (c : Client) (ourPort : Nat) : Client :=
  tftpSend { c with timeoutCountMax := cfg.rrqTimeoutCountMax, serverPort := 69,
                    timeoutCount := 0, state := .rrq, ourPort := ourPort, block := 0,
                    blkSize := 512 }

lemma tftpSend_eq (c : Client) : ∃ sent, tftpSend c = { c with sent := sent } := by
  unfold tftpSend
  cases c.state <;> exact ⟨_, rfl⟩

lemma acceptBlock_new (cfg : Config) {c : Client} (data : List UInt8)
    (differs : c.block ≠ c.lastBlock) :
    ∃ size sent, acceptBlock cfg c data =
      { c with
        lastBlock := c.block, timeoutCountMax := cfg.timeoutCount,
        mem := blit c.mem ((c.loadAddr +
          blockOffset c ((c.block + ulongMax - 1) % ulongMax)) % ulongMax) data,
        netBootFileXferSize := size, sent := sent,
        netState := if data.length < c.blkSize then .success else c.netState } := by
  obtain ⟨sent, hsent⟩ := tftpSend_eq (storeBlock
    { c with lastBlock := c.block, timeoutCountMax := cfg.timeoutCount }
    ((c.block + ulongMax - 1) % ulongMax) data)
  simp only [acceptBlock, if_neg differs, hsent]
  by_cases hshort : data.length < c.blkSize
  · exact ⟨_, sent, by simp [storeBlock, hshort, blockOffset]; rfl⟩
  · exact ⟨_, sent, by simp [storeBlock, hshort, blockOffset]; rfl⟩

lemma tftpTimeout_eq (c : Client) :
    ∃ sent netState, tftpTimeout c =
      { c with timeoutCount := c.timeoutCount + 1, sent := sent, netState := netState } ∧
      (netState = .startAgain ∨ netState = c.netState) := by
  by_cases hmany : c.timeoutCount + 1 > c.timeoutCountMax
  · refine ⟨c.sent, .startAgain, ?_, .inl rfl⟩
    simp [tftpTimeout, netStartAgain, hmany]
  · obtain ⟨sent, hsent⟩ := tftpSend_eq { c with timeoutCount := c.timeoutCount + 1 }
    refine ⟨sent, c.netState, ?_, .inr rfl⟩
    simp [tftpTimeout, hmany, hsent]

end Tftp
