import UBoot.Net.Nfs
import UBoot.Lib.Runs

/-!
# Stale replies and the download over NFS

What a reply with another transaction id does in each state, and what the image
holds as long as none arrives.
-/

namespace NfsDownload

open ByteMemory Nfs Runs

variable {s t : Client}

lemma nfsSend_spec (h : nfsSend s = some t) :
    ∃ id sent, t = { s with rpcId := id, sent := sent } ∧
      (s.nfsState ≠ .umountReq → ∃ port, sent = ⟨id, port, requestOf s⟩ :: s.sent) := by
  have hreq : ∀ r, rpcReq s r = some t →
      ∃ id sent, t = { s with rpcId := id, sent := sent } ∧ ∃ port, sent = ⟨id, port, r⟩ :: s.sent := by
    intro r hr
    unfold rpcReq at hr
    split_ifs at hr
    exact ⟨_, _, (Option.some.inj hr).symm, _, rfl⟩
  by_cases hstate : s.nfsState = .umountReq
  · simp only [nfsSend, hstate, nfsUmountallReq] at h
    split_ifs at h
    · cases h
      exact ⟨s.rpcId, s.sent, rfl, fun hne => absurd hstate hne⟩
    · obtain ⟨id, sent, ht, -⟩ := hreq _ h
      exact ⟨id, sent, ht, fun hne => absurd hstate hne⟩
  · have hsend : nfsSend s = rpcReq s (requestOf s) := by
      unfold nfsSend
      split
      · contradiction
      · rfl
    rw [hsend] at h
    obtain ⟨id, sent, ht, hsent⟩ := hreq _ h
    exact ⟨id, sent, ht, fun _ => hsent⟩

lemma goTo_state {n : NfsState} (h : goTo s n = some t) : t.nfsState = n := by
  obtain ⟨id, sent, rfl, -⟩ := nfsSend_spec h
  rfl

variable {p : Packet}

lemma be32_overlay {n a : Nat} (inside : a + 4 ≤ n) :
    be32 (overlay p n) a = be32 p.pkt a := by
  simp only [be32, be16, overlay]
  rw [if_pos (by omega), if_pos (by omega), if_pos (by omega), if_pos (by omega)]

def Stale (s : Client) (p : Packet) : Prop :=
  replyId (overlay p (if s.nfsState = .readReq then replySize else p.len)) ≠ s.rpcId

lemma stale_iff (has : 4 ≤ p.len) :
    Stale s p ↔ be32 p.pkt 0 ≠ s.rpcId := by
  unfold Stale
  split_ifs
  · rw [replyId, be32_overlay (by decide)]
  · rw [replyId, be32_overlay has]

/-- The download is where it was: the state, the place in the file, the ports, the handles, the
image. -/
structure Unaffected (s t : Client) : Prop where
  nfsState : t.nfsState = s.nfsState
  nfsOffset : t.nfsOffset = s.nfsOffset
  mountPort : t.nfsSrvMountPort = s.nfsSrvMountPort
  nfsPort : t.nfsSrvNfsPort = s.nfsSrvNfsPort
  dirfh : t.dirfh = s.dirfh
  filefh : t.filefh = s.filefh
  image : t.image = s.image
  size : t.netBootFileXferSize = s.netBootFileXferSize

def nextState : NfsState → NfsState
  | .prclookupProgMountReq => .prclookupProgNfsReq
  | .prclookupProgNfsReq => .mountReq
  | _ => .umountReq

lemma nfsHandler_stale (stale : Stale s p) :
    nfsHandler s p s.nfsOurPort =
      if s.nfsState ≠ .readReq ∧ rpcSize < p.len then none
      else if s.nfsState = .umountReq then some { s with netState := .fail }
      else goTo s (nextState s.nfsState) := by
  unfold Stale at stale
  cases hstate : s.nfsState with
  | readReq =>
    have hsize : ¬ rpcSize < replySize := by decide
    rw [hstate, if_pos rfl] at stale
    have hread : nfsReadReply s p = some (-1, s) := by
      simp [nfsReadReply, copyReply, hsize, stale]
    simp [nfsHandler, hstate, hread, nextState, nfserrIsdir, nfserrInval]
  | _ =>
    rw [hstate, if_neg (by decide)] at stale
    by_cases hlen : rpcSize < p.len
    · simp [nfsHandler, hstate, rpcLookupReply, nfsMountReply, nfsUmountallReply, nfsLookupReply,
        nfsReadlinkReply, copyReply, hlen]
    · simp [nfsHandler, hstate, rpcLookupReply, nfsMountReply, nfsUmountallReply, nfsLookupReply,
        nfsReadlinkReply, copyReply, hlen, stale, nextState]

lemma stale_unaffected_iff (stale : Stale s p) :
    (∃ t, nfsHandler s p s.nfsOurPort = some t ∧ Unaffected s t) ↔
      s.nfsState = .umountReq ∧ p.len ≤ rpcSize := by
  rw [nfsHandler_stale stale]
  constructor
  · rintro ⟨t, ht, hsame⟩
    split_ifs at ht with hlen hstate
    · rw [hstate] at hlen
      exact ⟨hstate, Nat.not_lt.mp (fun hlt => hlen ⟨by decide, hlt⟩)⟩
    · have hnext := (goTo_state ht).symm.trans hsame.nfsState
      cases hcase : s.nfsState <;> rw [hcase] at hnext hstate <;> simp [nextState] at hnext hstate
  · rintro ⟨hstate, hlen⟩
    have hfits : ¬ (s.nfsState ≠ .readReq ∧ rpcSize < p.len) := fun h => by omega
    rw [if_neg hfits, if_pos hstate]
    exact ⟨_, rfl, rfl, rfl, rfl, rfl, rfl, rfl, rfl, rfl⟩

/-- The file behind each handle; lengths are 32-bit numbers in this version of the protocol. -/
structure Server where
  content : List UInt8 → List UInt8
  bounded : ∀ fh, (content fh).length < 2 ^ 32

/-- A `read` at `offset` returns the next bytes of the file, none only at its end. -/
structure Reads (file : List UInt8) (offset readlen : Nat) (p : Packet) : Prop where
  ok : replyData (overlay p replySize) 0 = 0
  short : replyData (overlay p replySize) 18 ≤ readlen
  inside : offset + replyData (overlay p replySize) 18 ≤ file.length
  data : slice p.pkt replySize (replyData (overlay p replySize) 18) =
    (file.drop offset).take (replyData (overlay p replySize) 18)
  atEnd : replyData (overlay p replySize) 18 = 0 → file.length ≤ offset

/-- The server's answer to a request it executes; a handle may turn out to be a link or a
directory. -/
structure Answers (srv : Server) (r : Sent) (p : Packet) : Prop where
  fits : p.len ≤ rpcSize
  id : replyId (overlay p p.len) = r.id
  accepted : Nfs.accepted (overlay p p.len) = true
  result : match r.request with
    | .getport _ => True
    | .mountUmountall => True
    | .read fh offset readlen =>
      replySize ≤ p.len ∧ (Reads (srv.content fh) offset readlen p ∨
        replyData (overlay p replySize) 0 = nfserrIsdir ∨
        replyData (overlay p replySize) 0 = nfserrInval)
    | _ => replyData (overlay p p.len) 0 = 0

variable {srv : Server}

structure Stored (srv : Server) (s : Client) : Prop where
  notYet : s.nfsState ≠ .umountReq → s.nfsDownloadState = .fail
  reading : s.nfsState = .readReq → s.nfsLen < 2 ^ 31 ∧
    s.nfsOffset ≤ (srv.content s.filefh).length ∧
    Holds s.image s.loadAddr ((srv.content s.filefh).take s.nfsOffset)
  finished : s.nfsState = .umountReq → s.nfsDownloadState = .success ∧
    Holds s.image s.loadAddr (srv.content s.filefh)

/-- The last request sent is the one of the state, and its id is the current one. -/
structure Progress (srv : Server) (s : Client) : Prop where
  stored : Stored srv s
  pending : s.nfsState ≠ .umountReq → ∃ port rest, s.sent = ⟨s.rpcId, port, requestOf s⟩ :: rest

lemma progress_send (h : nfsSend s = some t) (stored : Stored srv s) : Progress srv t := by
  obtain ⟨id, sent, rfl, hsent⟩ := nfsSend_spec h
  refine ⟨⟨stored.notYet, stored.reading, stored.finished⟩, fun hstate => ?_⟩
  obtain ⟨port, hport⟩ := hsent hstate
  exact ⟨port, s.sent, hport⟩

lemma progress_goTo {n : NfsState} (h : goTo s n = some t) (fail : s.nfsDownloadState = .fail)
    (notUmount : n ≠ .umountReq) (notRead : n ≠ .readReq) :
    Progress srv t := by
  refine progress_send h ?_
  exact ⟨fun _ => fail, fun hn => absurd hn notRead, fun hn => absurd hn notUmount⟩

lemma holds_extended {file : List UInt8} {m src : Mem} {a offset n : Nat}
    (held : Holds m a (file.take offset)) (inside : offset + n ≤ file.length)
    (data : slice src replySize n = (file.drop offset).take n) :
    Holds (blit m (a + offset) (slice src replySize n)) a (file.take (offset + n)) := by
  have hlen : (file.take offset).length = offset := by
    rw [List.length_take]
    omega
  rw [List.take_add, holds_append]
  constructor
  · refine holds_congr (fun i _ hi => ?_) held
    rw [hlen] at hi
    exact blit_before _ _ hi
  · rw [hlen, data]
    exact holds_blit _ _ _

lemma nfsReadReply_answer {port : Nat} (state : s.nfsState = .readReq) (count : s.nfsLen < 2 ^ 31)
    (answer : Answers srv ⟨s.rpcId, port, requestOf s⟩ p) :
    (∃ n : Nat, nfsReadReply s p = some ((n : Int), storeBlock s p.pkt n) ∧
        s.nfsOffset + n ≤ (srv.content s.filefh).length ∧
        slice p.pkt replySize n = ((srv.content s.filefh).drop s.nfsOffset).take n ∧
        (n = 0 → (srv.content s.filefh).length ≤ s.nfsOffset)) ∨
      nfsReadReply s p = some (-(nfserrIsdir : Int), s) ∨
      nfsReadReply s p = some (-(nfserrInval : Int), s) := by
  have hrequest : requestOf s = .read s.filefh s.nfsOffset s.nfsLen := by rw [requestOf, state]
  have hid : replyId (overlay p p.len) = s.rpcId := answer.id
  have haccepted := answer.accepted
  have hresult := answer.result
  rw [hrequest] at hresult
  obtain ⟨hlong, hresult⟩ := hresult
  have hsize : replySize = 100 := rfl
  -- both copies of the packet have the same header
  have hid' : replyId (overlay p replySize) = s.rpcId := by
    rw [← hid, replyId, replyId, be32_overlay (by decide), be32_overlay (by omega)]
  have haccepted' : accepted (overlay p replySize) = true := by
    simp only [accepted, rstatus, verifier, astatus, be32_overlay (show 8 + 4 ≤ p.len by omega),
      be32_overlay (show 12 + 4 ≤ p.len by omega),
      be32_overlay (show 20 + 4 ≤ p.len by omega)] at haccepted
    exact haccepted
  have hcopy : copyReply p replySize = some (overlay p replySize) := if_neg (by decide)
  have hstatus : rstatus (overlay p replySize) = 0 ∧ astatus (overlay p replySize) = 0 := by
    simp only [accepted, decide_eq_true_eq] at haccepted'
    exact ⟨haccepted'.1, haccepted'.2.2⟩
  rcases hresult with ⟨hok, hshort, hin, hdata, hend⟩ | hdir | hinval
  · left
    refine ⟨replyData (overlay p replySize) 18, ?_, hin, hdata, hend⟩
    have hsmall : ¬ 2 ^ 31 ≤ replyData (overlay p replySize) 18 := by omega
    simp only [nfsReadReply, hcopy, Option.bind_some, hid', haccepted', hok, ne_eq, not_true_eq_false,
      Bool.true_eq_false, or_self, if_false, hsmall]
  · right
    left
    have hne : nfserrIsdir ≠ 0 := by decide
    simp only [nfsReadReply, hcopy, Option.bind_some, hid', haccepted', hdir, ne_eq,
      not_true_eq_false, Bool.true_eq_false, hne, not_false_eq_true, or_true, if_true, if_false,
      hstatus.1, hstatus.2]
    rfl
  · right
    right
    have hne : nfserrInval ≠ 0 := by decide
    simp only [nfsReadReply, hcopy, Option.bind_some, hid', haccepted', hinval, ne_eq,
      not_true_eq_false, Bool.true_eq_false, hne, not_false_eq_true, or_true, if_true, if_false,
      hstatus.1, hstatus.2]
    rfl

lemma progress_read {port : Nat} (progress : Progress srv s) (state : s.nfsState = .readReq)
    (answer : Answers srv ⟨s.rpcId, port, requestOf s⟩ p) (h : nfsHandler s p s.nfsOurPort = some t)
    : Progress srv t := by
  obtain ⟨hcount, hinside, hheld⟩ := progress.stored.reading state
  have hfail := progress.stored.notYet (by rw [state]; decide)
  simp only [nfsHandler, ne_eq, not_true_eq_false, if_false, state] at h
  rcases nfsReadReply_answer state hcount answer with ⟨n, hread, hin, hdata, hend⟩ | hread | hread
  · simp only [hread, Option.bind_some] at h
    have hext := holds_extended hheld hin hdata
    by_cases hpos : (0 : Int) < n
    · rw [if_pos hpos] at h
      have hbound := srv.bounded s.filefh
      have hsum : ((storeBlock s p.pkt n).nfsOffset + ((n : Int)).toNat) % 2 ^ 32 =
          s.nfsOffset + n := by
        have hmod : (s.nfsOffset + n) % 2 ^ 32 = s.nfsOffset + n := Nat.mod_eq_of_lt (by omega)
        exact hmod
      rw [hsum] at h
      refine progress_send h ?_
      refine ⟨fun _ => hfail, fun _ => ⟨hcount, hin, hext⟩, fun hstate => ?_⟩
      · exact absurd (state.symm.trans hstate) (by decide)
    · obtain rfl : n = 0 := by omega
      have hall : (srv.content s.filefh).take (s.nfsOffset + 0) = srv.content s.filefh :=
        List.take_of_length_le (hend rfl)
      rw [hall] at hext
      rw [if_neg hpos, if_neg (by decide), if_pos (show ((0 : Nat) : Int) = 0 from rfl)] at h
      refine progress_send h ?_
      refine ⟨fun hstate => absurd rfl hstate, fun hstate => ?_, fun _ => ⟨rfl, hext⟩⟩
      cases hstate
  · rw [hread, Option.bind_some] at h
    dsimp only at h
    rw [if_neg (by decide), if_pos (.inl rfl)] at h
    exact progress_goTo h hfail (by decide) (by decide)
  · rw [hread, Option.bind_some] at h
    dsimp only at h
    rw [if_neg (by decide), if_pos (.inr rfl)] at h
    exact progress_goTo h hfail (by decide) (by decide)

lemma progress_packet {port : Nat} (progress : Progress srv s)
    (answer : Answers srv ⟨s.rpcId, port, requestOf s⟩ p) (open_ : s.nfsState ≠ .umountReq)
    (h : nfsHandler s p s.nfsOurPort = some t) :
    Progress srv t := by
  have hfail := progress.stored.notYet open_
  have hcopy : copyReply p p.len = some (overlay p p.len) := if_neg (Nat.not_lt.mpr answer.fits)
  have hid : replyId (overlay p p.len) = s.rpcId := answer.id
  have haccepted := answer.accepted
  have hresult := answer.result
  cases hstate : s.nfsState with
  | readReq => exact progress_read progress hstate answer h
  | umountReq => exact absurd hstate open_
  | prclookupProgMountReq =>
    simp only [nfsHandler, ne_eq, not_true_eq_false, if_false, hstate, rpcLookupReply, hcopy,
      Option.map_some, Option.bind_some, hid, haccepted, Bool.true_eq_false] at h
    exact progress_goTo h hfail (by decide) (by decide)
  | prclookupProgNfsReq =>
    simp only [nfsHandler, ne_eq, not_true_eq_false, if_false, hstate, rpcLookupReply, hcopy,
      Option.map_some, Option.bind_some, hid, haccepted, Bool.true_eq_false] at h
    exact progress_goTo h hfail (by decide) (by decide)
  | mountReq =>
    simp only [requestOf, hstate] at hresult
    simp only [nfsHandler, ne_eq, not_true_eq_false, if_false, hstate, nfsMountReply, hcopy,
      Option.map_some, Option.bind_some, hid, haccepted, Bool.true_eq_false, hresult, or_self] at h
    exact progress_goTo h hfail (by decide) (by decide)
  | lookupReq =>
    simp only [requestOf, hstate] at hresult
    simp only [nfsHandler, ne_eq, not_true_eq_false, if_false, hstate, nfsLookupReply, hcopy,
      Option.map_some, Option.bind_some, hid, haccepted, Bool.true_eq_false, hresult, or_self] at h
    refine progress_send h ?_
    refine ⟨fun _ => hfail, fun _ => ⟨?_, Nat.zero_le _, trivial⟩, fun hs => ?_⟩
    · exact (by decide : nfsReadSize < 2 ^ 31)
    · cases hs
  | readlinkReq =>
    simp only [requestOf, hstate] at hresult
    simp only [nfsHandler, ne_eq, not_true_eq_false, if_false, hstate, nfsReadlinkReply, hcopy,
      Option.bind_some, hid, haccepted, Bool.true_eq_false, hresult, or_self] at h
    cases hlink : linkPath s.nfsPath (overlay p p.len) with
    | none => simp [hlink] at h
    | some path =>
      simp only [hlink, Option.map_some, Option.bind_some] at h
      obtain ⟨fname, -, h⟩ := Option.bind_eq_some_iff.mp h
      obtain ⟨dir, -, h⟩ := Option.bind_eq_some_iff.mp h
      exact progress_goTo h hfail (by decide) (by decide)

lemma nfsHandler_umount (state : s.nfsState = .umountReq)
    (h : nfsHandler s p s.nfsOurPort = some t) :
    ∃ mounted dirfh net,
      t = { s with fsMounted := mounted, dirfh := dirfh, netState := net } := by
  simp only [nfsHandler, ne_eq, not_true_eq_false, if_false, state] at h
  obtain ⟨r, hr, rfl⟩ := Option.map_eq_some_iff.mp h
  obtain ⟨m, -, rfl⟩ := Option.map_eq_some_iff.mp hr
  split_ifs
  · exact ⟨s.fsMounted, s.dirfh, .fail, by rw [state]⟩
  · exact ⟨s.fsMounted, s.dirfh, .fail, by rw [state]⟩
  · exact ⟨false, _, s.nfsDownloadState, by rw [state]⟩

inductive Event where
  | timeout (again : NetLoop)
  | packet (p : Packet) (dest : Nat)
  | start (path : List UInt8)

def step (s : Client) : Event → Option Client
  | .timeout again => nfsTimeout s again
  | .packet p dest => nfsHandler s p dest
  | .start path => nfsStart s path

def Prompt (srv : Server) (s : Client) : Event → Prop
  | .packet p dest => dest = s.nfsOurPort → s.nfsState ≠ .umountReq →
      ∃ r rest, s.sent = r :: rest ∧ Answers srv r p
  | _ => True

lemma progress_start {path : List UInt8} (h : nfsStart s path = some t) : Progress srv t := by
  obtain ⟨fname, -, h⟩ := Option.bind_eq_some_iff.mp h
  obtain ⟨dir, -, h⟩ := Option.bind_eq_some_iff.mp h
  exact progress_send h ⟨fun _ => rfl, fun hs => (by cases hs), fun hs => (by cases hs)⟩

lemma progress_step {e : Event} (progress : Progress srv s) (prompt : Prompt srv s e)
    (h : step s e = some t) : Progress srv t := by
  obtain ⟨hstored, hpending⟩ := progress
  cases e with
  | start path => exact progress_start h
  | timeout again =>
    simp only [step, nfsTimeout] at h
    split_ifs at h
    · cases h
      exact ⟨⟨hstored.notYet, hstored.reading, hstored.finished⟩, hpending⟩
    · exact progress_send h ⟨hstored.notYet, hstored.reading, hstored.finished⟩
  | packet p dest =>
    rw [step] at h
    by_cases hdest : dest = s.nfsOurPort
    · subst hdest
      by_cases hstate : s.nfsState = .umountReq
      · obtain ⟨mounted, dirfh, net, rfl⟩ := nfsHandler_umount hstate h
        exact ⟨⟨hstored.notYet, hstored.reading, hstored.finished⟩, fun hne => absurd hstate hne⟩
      obtain ⟨r, rest, hsent, hanswer⟩ := prompt rfl hstate
      obtain ⟨port, rest', hlast⟩ := hpending hstate
      obtain ⟨rfl, -⟩ := List.cons.inj (hsent.symm.trans hlast)
      exact progress_packet ⟨hstored, hpending⟩ hanswer hstate h
    · rw [nfsHandler, if_pos hdest] at h
      cases h
      exact ⟨hstored, hpending⟩

lemma progress_run {path : List UInt8} {events : List Event}
    (meet : StepsMeet step (Prompt srv) s (.start path :: events))
    (arrives : runFrom step s (.start path :: events) = some t) : Progress srv t := by
  cases hstart : step s (.start path) with
  | none => simp [runFrom, hstart] at arrives
  | some u =>
    rw [stepsMeet_cons hstart] at meet
    rw [runFrom_cons hstart] at arrives
    exact invariant_of_arrival (fun _ _ _ hprogress hprompt hstep =>
      progress_step hprogress hprompt hstep) (progress_start hstart) meet.2 arrives

/-- A stale reply is harmless exactly during the unmounting; and as long as none comes before,
timeouts or not, the image grows to the whole file, in order. -/
theorem download_unless_stale (srv : Server) (s : Client) (p : Packet) (path : List UInt8)
    (events : List Event) :
    (Stale s p → ((∃ t, nfsHandler s p s.nfsOurPort = some t ∧ Unaffected s t) ↔
        s.nfsState = .umountReq ∧ p.len ≤ rpcSize)) ∧
    ∀ t, StepsMeet step (Prompt srv) s (.start path :: events) →
      runFrom step s (.start path :: events) = some t → Progress srv t :=
  ⟨stale_unaffected_iff, fun _ => progress_run⟩

def idle : Client :=
  { fsMounted := false, rpcId := 0, nfsOffset := 0xffffffff, nfsLen := 0, dirfh := [], filefh := [],
    nfsDownloadState := .goesOn, nfsSrvMountPort := 0, nfsSrvNfsPort := 0, nfsOurPort := 0,
    nfsTimeoutCount := 0, nfsState := .prclookupProgMountReq, nfsFilename := [], nfsPath := [],
    netState := .goesOn, loadAddr := 0x30008000, image := fun _ => 0, netBootFileXferSize := 0,
    sent := [] }

def bootPath : List UInt8 := [47, 97, 47, 98]

/-- The same after `NfsStart`, and after one timeout more. -/
def started : Client :=
  { idle with rpcId := 1, nfsDownloadState := .fail, nfsOurPort := 1000, nfsFilename := [98],
              nfsPath := [47, 97], sent := [⟨1, 111, .getport .mount⟩] }

def resent : Client :=
  { started with rpcId := 2, nfsTimeoutCount := 1,
                 sent := [⟨2, 111, .getport .mount⟩, ⟨1, 111, .getport .mount⟩] }

/-- An accepted reply to call `id`. -/
def replyTo (id : UInt8) (data : List UInt8) : Packet :=
  ⟨ofBytes ([0, 0, 0, id, 0, 0, 0, 1] ++ List.replicate 16 0 ++ data), 24 + data.length, fun _ => 0⟩

/-- The portmapper's reply to call `id`: port 1000. -/
def portReply (id : UInt8) : Packet := replyTo id [0, 0, 3, 232]

def readReply (id count : UInt8) (data : List UInt8) : Packet :=
  replyTo id (List.replicate 75 0 ++ count :: data)

def threeBytes : Server := ⟨fun _ => [1, 2, 3], fun _ => by decide⟩

def packets : List Packet :=
  [portReply 2, portReply 3, replyTo 4 [0, 0, 0, 0], replyTo 5 [0, 0, 0, 0], readReply 6 3 [1, 2, 3],
    readReply 7 0 []]

/-- A timeout, and then every request is answered up to the end of the file. -/
theorem download_unless_stale_resent :
    ((∃ t, nfsHandler { resent with nfsState := .umountReq } (portReply 1) 1000 = some t ∧
      Unaffected { resent with nfsState := .umountReq } t) ↔
        (.umountReq : NfsState) = .umountReq ∧ 28 ≤ rpcSize) ∧
    ∃ t, runFrom step idle (.start bootPath :: .timeout .goesOn :: packets.map (.packet · 1000)) =
      some t ∧ t.nfsState = .umountReq ∧ Progress threeBytes t := by
  have hstart : step idle (.start bootPath) = some started := rfl
  have htimeout : step started (.timeout .goesOn) = some resent := rfl
  constructor
  · exact (download_unless_stale threeBytes { resent with nfsState := .umountReq } (portReply 1)
      bootPath []).1 ((stale_iff (by decide)).mpr (by decide))
  · obtain ⟨t, run, ended⟩ : ∃ t, runFrom step idle (.start bootPath :: .timeout .goesOn ::
        packets.map (.packet · 1000)) = some t ∧ t.nfsState = .umountReq := ⟨_, rfl, rfl⟩
    refine ⟨t, run, ended, (download_unless_stale threeBytes idle (portReply 1) bootPath _).2 t ?_ run⟩
    rw [stepsMeet_cons hstart, stepsMeet_cons htimeout]
    have next {s t : Client} {p : Packet} {r : Sent} {sent : List Sent} {rest : List Event}
        (last : s.sent = r :: sent) (answers : Answers threeBytes r p)
        (taken : step s (.packet p 1000) = some t) (later : StepsMeet step (Prompt threeBytes) t rest) :
        StepsMeet step (Prompt threeBytes) s (.packet p 1000 :: rest) :=
      (stepsMeet_cons taken _).mpr ⟨fun _ _ => ⟨r, sent, last, answers⟩, later⟩
    refine ⟨trivial, trivial, ?_⟩
    refine next rfl ⟨by decide, by decide, by decide, trivial⟩ rfl ?_
    refine next rfl ⟨by decide, by decide, by decide, trivial⟩ rfl ?_
    refine next rfl ⟨by decide, by decide, by decide, rfl⟩ rfl ?_
    refine next rfl ⟨by decide, by decide, by decide, rfl⟩ rfl ?_
    refine next rfl ⟨by decide, by decide, by decide, by decide, .inl ?_⟩ rfl ?_
    · exact ⟨by decide, by decide, by decide, by decide, by decide⟩
    refine next rfl ⟨by decide, by decide, by decide, by decide, .inl ?_⟩ rfl trivial
    exact ⟨by decide, by decide, by decide, by decide, by decide⟩

/-- The delayed reply to the first lookup makes the client go on without the mount port. -/
theorem delayed_reply_skips_lookup :
    runFrom step idle [.start bootPath, .timeout .goesOn] = some resent ∧
      Stale resent (portReply 1) ∧
      ∃ t, nfsHandler resent (portReply 1) resent.nfsOurPort = some t ∧ ¬ Unaffected resent t := by
  refine ⟨rfl, (stale_iff (by decide)).mpr (by decide), _, rfl, fun hsame => ?_⟩
  exact absurd hsame.nfsState (by decide)

end NfsDownload
