import UBoot.Lib.ByteMemory
import Mathlib.Algebra.Group.Int.Defs

/-!
# The NFS client (net/nfs.c)

The states of the download, the requests of each and what the handler does with a
reply. `none` is a write or read outside a buffer, or a `memcpy` of two gigabytes
or more. Requests sent are kept in a list, the latest first.
-/

namespace Nfs

open ByteMemory

inductive NfsState where
  | prclookupProgMountReq
  | prclookupProgNfsReq
  | mountReq
  | umountReq
  | lookupReq
  | readReq
  | readlinkReq
  deriving DecidableEq

/-- NETLOOP_CONTINUE and the three ways to leave the loop. -/
inductive NetLoop where
  | goesOn
  | restart
  | success
  | fail
  deriving DecidableEq

inductive Prog where
  | mount
  | nfs
  deriving DecidableEq

inductive Request where
  | getport (prog : Prog)
  | mountAddentry (path : List UInt8)
  | mountUmountall
  | lookup (dirfh fname : List UInt8)
  | read (filefh : List UInt8) (offset readlen : Nat)
  | readlink (filefh : List UInt8)
  deriving DecidableEq

structure Sent where
  id : Nat
  sport : Nat
  request : Request
  deriving DecidableEq

/-- The static variables, what they share with the network loop, and the requests sent. -/
structure Client where
  fsMounted : Bool
  rpcId : Nat
  nfsOffset : Nat
  nfsLen : Nat
  dirfh : List UInt8
  filefh : List UInt8
  nfsDownloadState : NetLoop
  nfsSrvMountPort : Nat
  nfsSrvNfsPort : Nat
  nfsOurPort : Nat
  nfsTimeoutCount : Nat
  nfsState : NfsState
  nfsFilename : List UInt8
  nfsPath : List UInt8
  netState : NetLoop
  loadAddr : Nat
  image : Mem
  netBootFileXferSize : Nat
  sent : List Sent

/-- A UDP packet as the handler gets it, and the stack its `rpc_pkt` is laid over. -/
structure Packet where
  pkt : Mem
  len : Nat
  stack : Mem

def nfsFhsize : Nat := 32
def nfsReadSize : Nat := 1024
def nfsRetryCount : Nat := 30
def sunrpcPort : Nat := 111
def nfserrIsdir : Nat := 21
def nfserrInval : Nat := 22

/-- `sizeof (struct rpc_t)`, and of its `reply`. -/
def rpcSize : Nat := 2048
def replySize : Nat := 100

/-- Words behind the RPC header; `rpc_add_credentials` writes nine. -/
def Request.datalen : Request → Nat
  | .getport _ => 8
  | .mountAddentry path => 9 + 1 + (path.length + 3) / 4
  | .mountUmountall => 9
  | .lookup _ fname => 9 + nfsFhsize / 4 + 1 + (fname.length + 3) / 4
  | .read _ _ _ => 9 + nfsFhsize / 4 + 3
  | .readlink _ => 9 + nfsFhsize / 4

def sport (s : Client) : Request → Nat
  | .getport _ => sunrpcPort
  | .mountAddentry _ => s.nfsSrvMountPort
  | .mountUmountall => s.nfsSrvMountPort
  | .lookup _ _ => s.nfsSrvNfsPort
  | .read _ _ _ => s.nfsSrvNfsPort
  | .readlink _ => s.nfsSrvNfsPort

/-- `rpc_req`: every call takes the next transaction id. -/
def rpcReq (s : Client) (r : Request) : Option Client :=
  if rpcSize < 24 + 4 * r.datalen then none
  else
    let id := (s.rpcId + 1) % 2 ^ 32
    some { s with rpcId := id, sent := ⟨id, sport s r, r⟩ :: s.sent }

/-- `nfs_umountall_req`: "Nothing mounted, nothing to umount". -/
def nfsUmountallReq (s : Client) : Option Client :=
  if s.nfsSrvMountPort = 0xffffffff ∨ s.fsMounted = false then some s
  else rpcReq s .mountUmountall

def requestOf (s : Client) : Request :=
  match s.nfsState with
  | .prclookupProgMountReq => .getport .mount
  | .prclookupProgNfsReq => .getport .nfs
  | .mountReq => .mountAddentry s.nfsPath
  | .umountReq => .mountUmountall
  | .lookupReq => .lookup s.dirfh s.nfsFilename
  | .readReq => .read s.filefh s.nfsOffset s.nfsLen
  | .readlinkReq => .readlink s.filefh

def nfsSend (s : Client) : Option Client :=
  match s.nfsState with
  | .umountReq => nfsUmountallReq s
  | _ => rpcReq s (requestOf s)

def cString (bs : List UInt8) : List UInt8 := bs.takeWhile (· ≠ 0)

def slash : UInt8 := 47

/-- `basename`; without a slash it returns a pointer in front of the string. -/
def basename (path : List UInt8) : Option (List UInt8) :=
  if slash ∈ path then some (path.reverse.takeWhile (· ≠ slash)).reverse else none

/-- `dirname`: the string cut at its last slash. -/
def dirname (path : List UInt8) : Option (List UInt8) :=
  if slash ∈ path then some (path.reverse.dropWhile (· ≠ slash)).tail.reverse else none

/-- `rpc_pkt` with the first `n` bytes of the packet in it. -/
def overlay (p : Packet) (n : Nat) : Mem := fun i => if i < n then p.pkt i else p.stack i

def copyReply (p : Packet) (n : Nat) : Option Mem :=
  if rpcSize < n then none else some (overlay p n)

def replyId (m : Mem) : Nat := be32 m 0
def rstatus (m : Mem) : Nat := be32 m 8
def verifier (m : Mem) : Nat := be32 m 12
def astatus (m : Mem) : Nat := be32 m 20
def replyData (m : Mem) (i : Nat) : Nat := be32 m (24 + 4 * i)

def accepted (m : Mem) : Bool := rstatus m = 0 ∧ verifier m = 0 ∧ astatus m = 0

/-- `rpc_lookup_reply`, whose result the handler ignores. -/
def rpcLookupReply (s : Client) (prog : Prog) (p : Packet) : Option Client :=
  (copyReply p p.len).map fun m =>
    if replyId m ≠ s.rpcId then s
    else if accepted m = false then s
    else match prog with
      | .mount => { s with nfsSrvMountPort := replyData m 0 }
      | .nfs => { s with nfsSrvNfsPort := replyData m 0 }

/-- The reply parsers return `none` for the -1 of the source. -/
def nfsMountReply (s : Client) (p : Packet) : Option (Option Client) :=
  (copyReply p p.len).map fun m =>
    if replyId m ≠ s.rpcId then none
    else if accepted m = false ∨ replyData m 0 ≠ 0 then none
    else some { s with fsMounted := true, dirfh := slice m 28 nfsFhsize }

def nfsUmountallReply (s : Client) (p : Packet) : Option (Option Client) :=
  (copyReply p p.len).map fun m =>
    if replyId m ≠ s.rpcId then none
    else if accepted m = false then none
    else some { s with fsMounted := false, dirfh := List.replicate nfsFhsize 0 }

def nfsLookupReply (s : Client) (p : Packet) : Option (Option Client) :=
  (copyReply p p.len).map fun m =>
    if replyId m ≠ s.rpcId then none
    else if accepted m = false ∨ replyData m 0 ≠ 0 then none
    else some { s with filefh := slice m 28 nfsFhsize }

/-- The path of a symbolic link, put in the place of `nfs_path` or behind it. -/
def linkPath (path : List UInt8) (m : Mem) : Option (List UInt8) :=
  let rlen := replyData m 1
  let front := if m 32 = slash then [] else path ++ [slash]
  if rpcSize < 32 + rlen ∨ 2048 ≤ front.length + rlen then none
  else some (cString (front ++ slice m 32 rlen))

def nfsReadlinkReply (s : Client) (p : Packet) : Option (Option Client) :=
  (copyReply p p.len).bind fun m =>
    if replyId m ≠ s.rpcId then some none
    else if accepted m = false ∨ replyData m 0 ≠ 0 then some none
    else (linkPath s.nfsPath m).map fun path => some { s with nfsPath := path }

def storeBlock (s : Client) (src : Mem) (len : Nat) : Client :=
  { s with
    image := blit s.image (s.loadAddr + s.nfsOffset) (slice src replySize len)
    netBootFileXferSize :=
      if s.netBootFileXferSize < (s.nfsOffset + len) % 2 ^ 32 then (s.nfsOffset + len) % 2 ^ 32
      else s.netBootFileXferSize }

def toInt (v : Nat) : Int := if v < 2 ^ 31 then v else (v : Int) - 2 ^ 32

/-- `nfs_read_reply`; it copies the size of a reply, whatever the packet's length is. -/
def nfsReadReply (s : Client) (p : Packet) : Option (Int × Client) :=
  (copyReply p replySize).bind fun m =>
    if replyId m ≠ s.rpcId then some (-1, s)
    else if accepted m = false ∨ replyData m 0 ≠ 0 then
      if rstatus m ≠ 0 then some (-9999, s)
      else if astatus m ≠ 0 then some (-9999, s)
      else some (toInt ((2 ^ 32 - replyData m 0) % 2 ^ 32), s)
    else if 2 ^ 31 ≤ replyData m 18 then none
    else some (replyData m 18, storeBlock s p.pkt (replyData m 18))

def goTo (s : Client) (n : NfsState) : Option Client := nfsSend { s with nfsState := n }

def nfsHandler (s : Client) (p : Packet) (dest : Nat) : Option Client :=
  if dest ≠ s.nfsOurPort then some s
  else match s.nfsState with
    | .prclookupProgMountReq => (rpcLookupReply s .mount p).bind (goTo · .prclookupProgNfsReq)
    | .prclookupProgNfsReq => (rpcLookupReply s .nfs p).bind (goTo · .mountReq)
    | .mountReq => (nfsMountReply s p).bind fun r => match r with
      | none => goTo s .umountReq
      | some t => goTo t .lookupReq
    | .umountReq => (nfsUmountallReply s p).map fun r => match r with
      | none => { s with netState := .fail }
      | some t => { t with netState := t.nfsDownloadState }
    | .lookupReq => (nfsLookupReply s p).bind fun r => match r with
      | none => goTo s .umountReq
      | some t => goTo { t with nfsOffset := 0, nfsLen := nfsReadSize } .readReq
    | .readlinkReq => (nfsReadlinkReply s p).bind fun r => match r with
      | none => goTo s .umountReq
      | some t => (basename t.nfsPath).bind fun fname => (dirname t.nfsPath).bind fun dir =>
        goTo { t with nfsFilename := fname, nfsPath := dir } .mountReq
    | .readReq => (nfsReadReply s p).bind fun r =>
      if 0 < r.1 then nfsSend { r.2 with nfsOffset := (r.2.nfsOffset + r.1.toNat) % 2 ^ 32 }
      else if r.1 = -nfserrIsdir ∨ r.1 = -nfserrInval then goTo r.2 .readlinkReq
      else if r.1 = 0 then goTo { r.2 with nfsDownloadState := .success } .umountReq
      else goTo r.2 .umountReq

/-- `NfsTimeout`; `again` is what `NetStartAgain` makes of `NetState`. -/
def nfsTimeout (s : Client) (again : NetLoop) : Option Client :=
  let s := { s with nfsTimeoutCount := s.nfsTimeoutCount + 1 }
  if nfsRetryCount < s.nfsTimeoutCount then some { s with netState := again } else nfsSend s

/-- `NfsStart` on the path behind the server's address in `BootFile`. -/
def nfsStart (s : Client) (path : List UInt8) : Option Client :=
  (basename path).bind fun fname => (dirname path).bind fun dir =>
    nfsSend { s with nfsDownloadState := .fail, nfsFilename := fname, nfsPath := dir,
                     nfsTimeoutCount := 0, nfsState := .prclookupProgMountReq, nfsOurPort := 1000 }

end Nfs
