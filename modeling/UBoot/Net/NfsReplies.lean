import Mathlib.Data.List.TakeWhile
import UBoot.Lib.Guarded
import UBoot.Net.NfsDownload

/-!
# Replies that stay inside their buffers

The reply parsers of the NFS client with every access checked: what is read of a reply has come
with the packet, `rpc_pkt` holds what is copied into it, and `nfs_path` stays in its buffer.
`none` is an access that does not.
-/

namespace NfsReplies

open ByteMemory Guarded Nfs NfsDownload Runs

def pathBuffSize : Nat := 2048

/-! ## The parsers -/

def word (p : Packet) (a : Nat) : Option Nat := if a + 4 ≤ p.len then some (be32 p.pkt a) else none

/-- `memcpy ((unsigned char *)&rpc_pkt, pkt, len)`. -/
def copyIn (p : Packet) : Option Unit := if p.len ≤ rpcSize then some () else none

/-- The checks of all parsers in their order; `status` where `data[0]` is one of them. -/
def checksIn (s : Client) (p : Packet) (status : Bool) : Option Bool :=
  (word p 0).bind fun id => if id ≠ s.rpcId then some false
  else (word p 8).bind fun rstatus => if rstatus ≠ 0 then some false
  else (word p 12).bind fun verifier => if verifier ≠ 0 then some false
  else (word p 20).bind fun astatus => if astatus ≠ 0 then some false
  else if status then (word p 24).map fun data => data = 0
  else some true

def rpcLookupIn (s : Client) (prog : Prog) (p : Packet) : Option Client :=
  (copyIn p).bind fun _ => (checksIn s p false).bind fun ok =>
    if ok then (word p 24).map fun port =>
      match prog with
      | .mount => { s with nfsSrvMountPort := port }
      | .nfs => { s with nfsSrvNfsPort := port }
    else some s

def handleIn (p : Packet) : Option (List UInt8) :=
  if 28 + nfsFhsize ≤ p.len then some (slice p.pkt 28 nfsFhsize) else none

def nfsMountIn (s : Client) (p : Packet) : Option (Option Client) :=
  (copyIn p).bind fun _ => (checksIn s p true).bind fun ok =>
    if ok then (handleIn p).map fun fh => some { s with fsMounted := true, dirfh := fh }
    else some none

def nfsUmountallIn (s : Client) (p : Packet) : Option (Option Client) :=
  (copyIn p).bind fun _ => (checksIn s p false).map fun ok =>
    if ok then some { s with fsMounted := false, dirfh := List.replicate nfsFhsize 0 } else none

def nfsLookupIn (s : Client) (p : Packet) : Option (Option Client) :=
  (copyIn p).bind fun _ => (checksIn s p true).bind fun ok =>
    if ok then (handleIn p).map fun fh => some { s with filefh := fh }
    else some none

def linkPathIn (path : List UInt8) (p : Packet) : Option (List UInt8) :=
  (word p 28).bind fun rlen =>
    if p.len ≤ 32 then none
    else
      let front := if p.pkt 32 = slash then [] else path ++ [slash]
      if p.len < 32 + rlen then none
      else if pathBuffSize ≤ front.length + rlen then none
      else some (cString (front ++ slice p.pkt 32 rlen))

def nfsReadlinkIn (s : Client) (p : Packet) : Option (Option Client) :=
  (copyIn p).bind fun _ => (checksIn s p true).bind fun ok =>
    if ok then (linkPathIn s.nfsPath p).map fun path => some { s with nfsPath := path }
    else some none

/-- `nfs_read_reply`: the size of a reply is copied, and the data lies behind it. -/
def nfsReadIn (s : Client) (p : Packet) : Option Unit :=
  if p.len < replySize then none
  else (checksIn s p true).bind fun ok =>
    if ok then (word p 96).bind fun rlen => if p.len < replySize + rlen then none else some ()
    else some ()

def followIn (s : Client) (p : Packet) : Option (Option Client) :=
  (nfsReadlinkIn s p).bind fun r => match r with
    | none => some none
    | some t => (basename t.nfsPath).bind fun fname => (dirname t.nfsPath).map fun dir =>
      some { t with nfsFilename := fname, nfsPath := dir }

def Contained (s : Client) (p : Packet) : Prop :=
  match s.nfsState with
  | .prclookupProgMountReq => rpcLookupIn s .mount p ≠ none
  | .prclookupProgNfsReq => rpcLookupIn s .nfs p ≠ none
  | .mountReq => nfsMountIn s p ≠ none
  | .umountReq => nfsUmountallIn s p ≠ none
  | .lookupReq => nfsLookupIn s p ≠ none
  | .readReq => nfsReadIn s p ≠ none
  | .readlinkReq => followIn s p ≠ none

/-! ## What a reply has to be like -/

variable {status : Bool}

def checked (s : Client) (p : Packet) (status : Bool) : Nat :=
  if be32 p.pkt 0 ≠ s.rpcId then 4
  else if be32 p.pkt 8 ≠ 0 then 12
  else if be32 p.pkt 12 ≠ 0 then 16
  else if be32 p.pkt 20 ≠ 0 then 24
  else if status then 28
  else 24

structure Passes (s : Client) (p : Packet) (status : Bool) : Prop where
  id : be32 p.pkt 0 = s.rpcId
  rstatus : be32 p.pkt 8 = 0
  verifier : be32 p.pkt 12 = 0
  astatus : be32 p.pkt 20 = 0
  data : status = true → be32 p.pkt 24 = 0

lemma passes_iff {s : Client} {p : Packet} :
    Passes s p status ↔ be32 p.pkt 0 = s.rpcId ∧ be32 p.pkt 8 = 0 ∧ be32 p.pkt 12 = 0 ∧
      be32 p.pkt 20 = 0 ∧ (status = true → be32 p.pkt 24 = 0) := by
  constructor
  · rintro ⟨id, rstatus, verifier, astatus, data⟩
    exact ⟨id, rstatus, verifier, astatus, data⟩
  · rintro ⟨id, rstatus, verifier, astatus, data⟩
    exact ⟨id, rstatus, verifier, astatus, data⟩

instance decidablePasses (s : Client) (p : Packet) (status : Bool) :
    Decidable (Passes s p status) := decidable_of_iff _ passes_iff.symm

/-- A reply as long as it is looked at, of which `rpc_pkt` holds all. -/
structure Answer (s : Client) (p : Packet) (status : Bool) (last : Nat) : Prop where
  copied : p.len ≤ rpcSize
  checked : checked s p status ≤ p.len
  whole : Passes s p status → last ≤ p.len

/-- The path of a link that fits: `rlen` is in `data[1]`, the path behind it. -/
structure LinkFits (s : Client) (p : Packet) : Prop where
  first : 33 ≤ p.len
  whole : 32 + be32 p.pkt 28 ≤ p.len
  absolute : p.pkt 32 = slash → 0 < be32 p.pkt 28
  relative : p.pkt 32 ≠ slash → s.nfsPath.length + 1 + be32 p.pkt 28 < pathBuffSize

def Fits (s : Client) (p : Packet) : Prop :=
  match s.nfsState with
  | .prclookupProgMountReq => Answer s p false 28
  | .prclookupProgNfsReq => Answer s p false 28
  | .mountReq => Answer s p true 60
  | .umountReq => Answer s p false 24
  | .lookupReq => Answer s p true 60
  | .readReq => replySize ≤ p.len ∧ (Passes s p true → replySize + be32 p.pkt 96 ≤ p.len)
  | .readlinkReq => Answer s p true 32 ∧ (Passes s p true → LinkFits s p)

variable {s t : Client} {p : Packet}

variable {α : Type} {f : Bool → Option α}

lemma word_bind (p : Packet) (a : Nat) (f : Nat → Option α) :
    (word p a).bind f = if a + 4 ≤ p.len then f (be32 p.pkt a) else none := by
  unfold word
  split_ifs
  · rfl
  · rfl

lemma word_map (p : Packet) (a : Nat) (f : Nat → α) :
    (word p a).map f = if a + 4 ≤ p.len then some (f (be32 p.pkt a)) else none := by
  unfold word
  split_ifs
  · rfl
  · rfl

lemma reads {a b len : Nat} (before : a ≤ b) (x : α) :
    (if a ≤ len then if b ≤ len then some x else none else none) =
      if b ≤ len then some x else none := by
  split_ifs
  · rfl
  · rfl
  · omega
  · rfl

lemma checksIn_eq (s : Client) (p : Packet) (status : Bool) :
    checksIn s p status =
      if checked s p status ≤ p.len then some (decide (Passes s p status)) else none := by
  simp only [checksIn, word_bind, word_map, passes_iff, checked]
  -- one case for each word the checks may stop at
  by_cases id : be32 p.pkt 0 = s.rpcId
  case neg => simp [id]
  by_cases rstatus : be32 p.pkt 8 = 0
  case neg => simp [id, rstatus, reads]
  by_cases verifier : be32 p.pkt 12 = 0
  case neg => simp [id, rstatus, verifier, reads]
  by_cases astatus : be32 p.pkt 20 = 0
  case neg => simp [id, rstatus, verifier, astatus, reads]
  cases status with
  | false => simp [id, rstatus, verifier, astatus, reads]
  | true => simp [id, rstatus, verifier, astatus, reads]

lemma checks_bind :
    (checksIn s p status).bind f ≠ none ↔ checked s p status ≤ p.len ∧
      (Passes s p status → f true ≠ none) ∧ (¬ Passes s p status → f false ≠ none) := by
  rw [checksIn_eq]
  by_cases long : checked s p status ≤ p.len
  · by_cases passes : Passes s p status
    · simp [long, passes]
    · simp [long, passes]
  · simp [long]

lemma copyIn_bind {f : Unit → Option α} :
    (copyIn p).bind f ≠ none ↔ p.len ≤ rpcSize ∧ f () ≠ none :=
  bind_ne_none

lemma answer_iff {last : Nat} (refused : f false ≠ none) (taken : f true ≠ none ↔ last ≤ p.len) :
    ((copyIn p).bind fun _ => (checksIn s p status).bind f) ≠ none ↔ Answer s p status last := by
  rw [copyIn_bind, checks_bind, taken]
  constructor
  · rintro ⟨copied, checked, whole, -⟩
    exact ⟨copied, checked, whole⟩
  · rintro ⟨copied, checked, whole⟩
    exact ⟨copied, checked, whole, fun _ => refused⟩

lemma word_map_iff {a : Nat} {f : Nat → α} :
    (word p a).map f ≠ none ↔ a + 4 ≤ p.len :=
  map_ne_none

lemma handleIn_map_iff {f : List UInt8 → α} :
    (handleIn p).map f ≠ none ↔ 60 ≤ p.len :=
  map_ne_none

lemma rpcLookupIn_iff (prog : Prog) : rpcLookupIn s prog p ≠ none ↔ Answer s p false 28 :=
  answer_iff (by simp) (by rw [if_pos rfl, word_map_iff])

lemma nfsMountIn_iff : nfsMountIn s p ≠ none ↔ Answer s p true 60 :=
  answer_iff (by simp) (by rw [if_pos rfl, handleIn_map_iff])

lemma nfsLookupIn_iff : nfsLookupIn s p ≠ none ↔ Answer s p true 60 :=
  answer_iff (by simp) (by rw [if_pos rfl, handleIn_map_iff])

lemma checked_passes (passes : Passes s p status) :
    checked s p status = if status then 28 else 24 := by
  simp [checked, passes.id, passes.rstatus, passes.verifier, passes.astatus]

lemma checked_le (s : Client) (p : Packet) (status : Bool) : checked s p status ≤ 28 := by
  unfold checked
  split_ifs <;> decide

lemma nfsUmountallIn_iff : nfsUmountallIn s p ≠ none ↔ Answer s p false 24 := by
  unfold nfsUmountallIn
  simp only [Option.map_eq_bind]
  rw [copyIn_bind, checks_bind]
  constructor
  · rintro ⟨copied, checked, -⟩
    refine ⟨copied, checked, fun passes => ?_⟩
    rwa [checked_passes passes, if_neg Bool.false_ne_true] at checked
  · rintro ⟨copied, checked, -⟩
    exact ⟨copied, checked, fun _ => by simp, fun _ => by simp⟩

lemma nfsReadIn_iff : nfsReadIn s p ≠ none ↔
    replySize ≤ p.len ∧ (Passes s p true → replySize + be32 p.pkt 96 ≤ p.len) := by
  have most := checked_le s p true
  have size : 28 ≤ replySize := by decide
  have block : (word p 96).bind (fun rlen => if p.len < replySize + rlen then none else some ())
      ≠ none ↔ 96 + 4 ≤ p.len ∧ replySize + be32 p.pkt 96 ≤ p.len := by
    rw [word, bind_ne_none, check_some_ne_none, not_lt]
  rw [nfsReadIn, check_ne_none, not_lt, checks_bind]
  simp only [if_true, block]
  constructor
  · rintro ⟨long, -, whole, -⟩
    exact ⟨long, fun passes => (whole passes).2⟩
  · rintro ⟨long, whole⟩
    exact ⟨long, by omega, fun passes => ⟨long, whole passes⟩, fun _ => by simp⟩

/-! ## Symbolic links -/

variable {m : Mem} {path : List UInt8}

lemma slash_mem_cString {front bs : List UInt8} (plain : (0 : UInt8) ∉ front) :
    slash ∈ cString (front ++ [slash] ++ bs) := by
  have letters : ∀ b ∈ front ++ [slash], decide (b ≠ 0) = true := by
    intro b found
    rcases List.mem_append.mp found with found | found
    · exact decide_eq_true fun zero => plain (zero ▸ found)
    · rw [List.mem_singleton.mp found]
      rfl
  rw [cString, List.takeWhile_append_of_pos letters]
  simp

lemma slash_mem_slice {a n : Nat} (first : m a = slash) :
    slash ∈ cString (slice m a n) ↔ 0 < n := by
  cases n with
  | zero => simp [slice, cString]
  | succ n =>
    have letter : slash ≠ 0 := by decide
    simp [slice, cString, first, letter]

lemma slash_mem_link (plain : (0 : UInt8) ∉ path) (p : Packet) :
    slash ∈ cString ((if p.pkt 32 = slash then [] else path ++ [slash]) ++
      slice p.pkt 32 (be32 p.pkt 28)) ↔ (p.pkt 32 = slash → 0 < be32 p.pkt 28) := by
  by_cases first : p.pkt 32 = slash
  · rw [if_pos first, List.nil_append, slash_mem_slice first]
    exact ⟨fun long _ => long, fun long => long first⟩
  · rw [if_neg first]
    exact ⟨fun _ is => absurd is first, fun _ => slash_mem_cString plain⟩

lemma cut_iff {f : List UInt8 → List UInt8 → Option Client} :
    ((basename path).bind fun fname => (dirname path).map fun dir => f fname dir) ≠ none ↔
      slash ∈ path := by
  unfold basename dirname
  split_ifs with found
  · simp [found]
  · simp [found]

lemma linkPathIn_bind {f : List UInt8 → Option α} :
    (linkPathIn path p).bind f ≠ none ↔ 33 ≤ p.len ∧ 32 + be32 p.pkt 28 ≤ p.len ∧
      (if p.pkt 32 = slash then [] else path ++ [slash]).length + be32 p.pkt 28 < pathBuffSize ∧
      f (cString ((if p.pkt 32 = slash then [] else path ++ [slash]) ++
        slice p.pkt 32 (be32 p.pkt 28))) ≠ none := by
  unfold linkPathIn
  rw [word_bind]
  dsimp only
  generalize (if p.pkt 32 = slash then [] else path ++ [slash]) = front
  split_ifs
  · exact ⟨fun found => absurd rfl found, fun fits => absurd fits.1 (by omega)⟩
  · exact ⟨fun found => absurd rfl found, fun fits => absurd fits.2.1 (by omega)⟩
  · exact ⟨fun found => absurd rfl found, fun fits => absurd fits.2.2.1 (by omega)⟩
  · rw [Option.bind_some]
    exact ⟨fun found => ⟨by omega, by omega, by omega, found⟩, fun fits => fits.2.2.2⟩
  · exact ⟨fun found => absurd rfl found, fun fits => absurd fits.1 (by omega)⟩

lemma followIn_iff (plain : (0 : UInt8) ∉ s.nfsPath) :
    followIn s p ≠ none ↔ Answer s p true 32 ∧ (Passes s p true → LinkFits s p) := by
  unfold followIn nfsReadlinkIn
  rw [Option.bind_assoc, copyIn_bind, Option.bind_assoc, checks_bind]
  simp only [if_true, Option.bind_map, Function.comp_def, linkPathIn_bind, cut_iff,
    slash_mem_link plain]
  constructor
  · rintro ⟨copied, checked, link, -⟩
    refine ⟨⟨copied, checked, fun passes => ?_⟩, fun passes => ?_⟩
    · have first := (link passes).1
      omega
    · obtain ⟨first, whole, room, absolute⟩ := link passes
      refine ⟨first, whole, absolute, fun relative => ?_⟩
      rw [if_neg relative, List.length_append, List.length_singleton] at room
      exact room
  · rintro ⟨⟨copied, checked, -⟩, link⟩
    refine ⟨copied, checked, fun passes => ?_, fun _ => by simp⟩
    obtain ⟨first, whole, absolute, relative⟩ := link passes
    refine ⟨first, whole, ?_, absolute⟩
    split_ifs with is
    · have size : rpcSize = pathBuffSize := rfl
      rw [List.length_nil]
      omega
    · rw [List.length_append, List.length_singleton]
      exact relative is

lemma contained_iff_fits (plain : (0 : UInt8) ∉ s.nfsPath) : Contained s p ↔ Fits s p := by
  unfold Contained Fits
  cases s.nfsState with
  | prclookupProgMountReq => exact rpcLookupIn_iff .mount
  | prclookupProgNfsReq => exact rpcLookupIn_iff .nfs
  | mountReq => exact nfsMountIn_iff
  | umountReq => exact nfsUmountallIn_iff
  | lookupReq => exact nfsLookupIn_iff
  | readReq => exact nfsReadIn_iff
  | readlinkReq => exact followIn_iff plain

/-! ## Runs -/

inductive Event where
  | timeout (again : NetLoop)
  | packet (p : Packet) (dest : Nat)

def step (s : Client) : Event → Option Client
  | .timeout again => nfsTimeout s again
  | .packet p dest => nfsHandler s p dest

def RepliesContained (s : Client) : Event → Prop
  | .timeout _ => True
  | .packet p dest => dest = s.nfsOurPort → Contained s p

def RepliesFit (s : Client) : Event → Prop
  | .timeout _ => True
  | .packet p dest => dest = s.nfsOurPort → Fits s p

def PlainPath (s : Client) : Prop := (0 : UInt8) ∉ s.nfsPath

lemma plainPath_send (plain : PlainPath s) (sent : nfsSend s = some t) : PlainPath t := by
  obtain ⟨id, requests, rfl, -⟩ := nfsSend_spec sent
  exact plain

lemma plainPath_dirname {dir : List UInt8} (plain : (0 : UInt8) ∉ path)
    (cut : dirname path = some dir) : (0 : UInt8) ∉ dir := by
  unfold dirname at cut
  split_ifs at cut
  cases cut
  intro found
  have inTail := List.mem_reverse.mp found
  exact plain (List.mem_reverse.mp
    ((List.dropWhile_sublist _).mem (List.mem_of_mem_tail inTail)))

/-! The parsers other than that of a link leave the path alone. -/

lemma rpcLookupReply_path {prog : Prog} (parsed : rpcLookupReply s prog p = some t) :
    t.nfsPath = s.nfsPath := by
  obtain ⟨m, -, rfl⟩ := Option.map_eq_some_iff.mp parsed
  split_ifs
  · rfl
  · rfl
  · cases prog <;> rfl

lemma nfsMountReply_path (parsed : nfsMountReply s p = some (some t)) :
    t.nfsPath = s.nfsPath := by
  obtain ⟨m, -, parsed⟩ := Option.map_eq_some_iff.mp parsed
  split_ifs at parsed
  rw [← Option.some.inj parsed]

lemma nfsUmountallReply_path (parsed : nfsUmountallReply s p = some (some t)) :
    t.nfsPath = s.nfsPath := by
  obtain ⟨m, -, parsed⟩ := Option.map_eq_some_iff.mp parsed
  split_ifs at parsed
  rw [← Option.some.inj parsed]

lemma nfsLookupReply_path (parsed : nfsLookupReply s p = some (some t)) :
    t.nfsPath = s.nfsPath := by
  obtain ⟨m, -, parsed⟩ := Option.map_eq_some_iff.mp parsed
  split_ifs at parsed
  rw [← Option.some.inj parsed]

lemma nfsReadReply_path {r : Int × Client} (parsed : nfsReadReply s p = some r) :
    r.2.nfsPath = s.nfsPath := by
  obtain ⟨m, -, parsed⟩ := Option.bind_eq_some_iff.mp parsed
  split_ifs at parsed
  all_goals
    cases parsed
    rfl

lemma cString_plain (bs : List UInt8) : (0 : UInt8) ∉ cString bs := by
  intro found
  have other : decide ((0 : UInt8) ≠ 0) = true := List.mem_takeWhile_imp (l := bs) found
  exact absurd other (by decide)

lemma nfsReadlinkReply_plain (parsed : nfsReadlinkReply s p = some (some t)) : PlainPath t := by
  obtain ⟨m, -, parsed⟩ := Option.bind_eq_some_iff.mp parsed
  split_ifs at parsed
  · exact absurd (Option.some.inj parsed) (Option.some_ne_none t).symm
  · exact absurd (Option.some.inj parsed) (Option.some_ne_none t).symm
  · obtain ⟨path, link, taken⟩ := Option.map_eq_some_iff.mp parsed
    cases taken
    rw [linkPath] at link
    split_ifs at link
    all_goals
      cases link
      exact cString_plain _

lemma plainPath_goTo {n : NfsState} (plain : PlainPath s) (sent : goTo s n = some t) :
    PlainPath t :=
  plainPath_send (s := { s with nfsState := n }) plain sent

lemma plainPath_packet {dest : Nat} (plain : PlainPath s)
    (next : nfsHandler s p dest = some t) : PlainPath t := by
  have same {u : Client} (path : u.nfsPath = s.nfsPath) : PlainPath u := by
    rw [PlainPath, path]
    exact plain
  rw [nfsHandler] at next
  split_ifs at next with other
  · exact Option.some.inj next ▸ plain
  cases state : s.nfsState with
  | prclookupProgMountReq =>
    simp only [state] at next
    obtain ⟨u, parsed, next⟩ := Option.bind_eq_some_iff.mp next
    exact plainPath_goTo (same (rpcLookupReply_path parsed)) next
  | prclookupProgNfsReq =>
    simp only [state] at next
    obtain ⟨u, parsed, next⟩ := Option.bind_eq_some_iff.mp next
    exact plainPath_goTo (same (rpcLookupReply_path parsed)) next
  | mountReq =>
    simp only [state] at next
    obtain ⟨r, parsed, next⟩ := Option.bind_eq_some_iff.mp next
    cases r with
    | none => exact plainPath_goTo plain next
    | some u => exact plainPath_goTo (same (nfsMountReply_path parsed)) next
  | umountReq =>
    simp only [state] at next
    obtain ⟨r, parsed, rfl⟩ := Option.map_eq_some_iff.mp next
    cases r with
    | none => exact plain
    | some u =>
      have path := nfsUmountallReply_path parsed
      exact same (u := { u with netState := u.nfsDownloadState }) path
  | lookupReq =>
    simp only [state] at next
    obtain ⟨r, parsed, next⟩ := Option.bind_eq_some_iff.mp next
    cases r with
    | none => exact plainPath_goTo plain next
    | some u =>
      have path := nfsLookupReply_path parsed
      exact plainPath_goTo (same (u := { u with nfsOffset := 0, nfsLen := nfsReadSize }) path) next
  | readlinkReq =>
    simp only [state] at next
    obtain ⟨r, parsed, next⟩ := Option.bind_eq_some_iff.mp next
    cases r with
    | none => exact plainPath_goTo plain next
    | some u =>
      obtain ⟨fname, -, next⟩ := Option.bind_eq_some_iff.mp next
      obtain ⟨dir, cut, next⟩ := Option.bind_eq_some_iff.mp next
      refine plainPath_goTo (s := { u with nfsFilename := fname, nfsPath := dir }) ?_ next
      exact plainPath_dirname (nfsReadlinkReply_plain parsed) cut
  | readReq =>
    simp only [state] at next
    obtain ⟨r, parsed, next⟩ := Option.bind_eq_some_iff.mp next
    have plain := same (nfsReadReply_path parsed)
    split_ifs at next
    · exact plainPath_send
        (s := { r.2 with nfsOffset := (r.2.nfsOffset + r.1.toNat) % 2 ^ 32 }) plain next
    · exact plainPath_goTo plain next
    · exact plainPath_goTo (s := { r.2 with nfsDownloadState := .success }) plain next
    · exact plainPath_goTo plain next

lemma plainPath_step {e : Event} (plain : PlainPath s) (next : step s e = some t) :
    PlainPath t := by
  cases e with
  | packet p dest => exact plainPath_packet plain next
  | timeout again =>
    simp only [step, nfsTimeout] at next
    split_ifs at next
    · cases next
      exact plain
    · exact plainPath_send (s := { s with nfsTimeoutCount := s.nfsTimeoutCount + 1 }) plain next

/-- Every reply of a run stays inside its buffers exactly if each fits the state it comes in. -/
theorem replies_contained_iff (plain : PlainPath s) (events : List Event) :
    StepsMeet step RepliesContained s events ↔ StepsMeet step RepliesFit s events := by
  refine stepsMeet_congr (fun _ _ _ (plain : PlainPath _) next => plainPath_step plain next)
    (fun s e plain => ?_) plain events
  cases e with
  | timeout again => exact Iff.rfl
  | packet p dest => exact forall_congr' fun _ => contained_iff_fits plain

theorem replies_contained_started :
    StepsMeet step RepliesContained started [.packet (portReply 1) 1000] := by
  have plain : (0 : UInt8) ∉ started.nfsPath := by decide
  refine (replies_contained_iff plain _).mpr ⟨fun _ => ?_, fun _ _ => trivial⟩
  exact ⟨by decide, by decide, fun _ => by decide⟩

def cutReply : Packet :=
  ⟨fun i => if i = 3 then 1 else if i = 99 then 1 else 0, replySize, fun _ => 0⟩

/-- The byte behind the packet is stored. -/
theorem cut_reply_stored : PlainPath started ∧
    ¬ StepsMeet step RepliesContained { started with nfsState := .readReq }
      [.packet cutReply started.nfsOurPort] := by
  have plain : (0 : UInt8) ∉ started.nfsPath := by decide
  refine ⟨plain, fun meet => ?_⟩
  have contained := meet.1 rfl
  have fits := (nfsReadIn_iff (s := { started with nfsState := .readReq })).mp contained
  have passes : Passes { started with nfsState := .readReq } cutReply true := by decide
  exact absurd (fits.2 passes) (by decide)

end NfsReplies
