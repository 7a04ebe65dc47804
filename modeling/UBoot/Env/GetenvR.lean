import UBoot.Env.EnvMap

/-!
# Copying a variable (common/cmd_nvedit.c, `getenv_r`)

The loop counts one round more than it takes when the buffer is full, and as many as there are
bytes when the value with its NUL fills the buffer: the fix-up behind it is made in the wrong one
of the two cases.
-/

namespace GetenvR

open ByteMemory EnvArea SetEnv AreaScan EnvMap

/-- What is returned, the buffer, and how many bytes have been stored in it. -/
structure Result where
  n : Int
  buf : Mem
  stored : Nat

/-- `while ((len > n++) && (*buf++ = env_get_char(val++)) != '\0') ;` with `len - n` left. -/
def copyOut (d : Mem) : (left val n : Nat) → Mem → Nat × Nat × Mem
  | 0, _, n, buf => (n + 1, n, buf)
  | left + 1, val, n, buf =>
    let buf := store buf n (d val)
    if d val = 0 then (n + 1, n + 1, buf) else copyOut d left (val + 1) (n + 1) buf

/-- `getenv_r`; the search is that of `getenv`. -/
def getenvR (envSize header : Nat) (d : Mem) (name : List UInt8) (buf : Mem) (len : Nat) :
    Option Result :=
  match getenvLoop envSize header d name (envSize + header + 1) 0 with
  | none => none
  | some val =>
    if val < 0 then some ⟨-1, buf, 0⟩
    else
      let (n, stored, buf) := copyOut d len val.toNat 0 buf
      if len = n then some ⟨n, store buf stored 0, stored + 1⟩ else some ⟨n, buf, stored⟩

def CopiedTo (value : Option CStr) (len : Nat) (r : Result) : Prop :=
  r.stored ≤ len ∧ (0 ≤ r.n → ∃ v, value = some v ∧
    Holds r.buf 0 ((if v.val.length < len then v.val else v.val.take (len - 1)) ++ [0]))

lemma copyOut_short {d : Mem} {v rest : List UInt8} {val n left : Nat} {buf : Mem}
    (held : Holds d val (v ++ 0 :: rest)) (noNul : (0 : UInt8) ∉ v) (room : v.length < left) :
    copyOut d left val n buf =
      (n + v.length + 1, n + v.length + 1, blit buf n (v ++ [0])) := by
  induction v generalizing val n left buf with
  | nil =>
    obtain ⟨left, rfl⟩ := Nat.exists_eq_succ_of_ne_zero (Nat.ne_of_gt room)
    have nul : d val = 0 := held.1
    rw [copyOut, nul, if_pos rfl, List.nil_append, ← blit_store, blit_nil]
    rfl
  | cons c v ih =>
    obtain ⟨left, rfl⟩ := Nat.exists_eq_succ_of_ne_zero (Nat.ne_of_gt (Nat.zero_lt_of_lt room))
    obtain ⟨first, tail⟩ := not_or.mp (mt List.mem_cons.mpr noNul)
    have here : d val = c := held.1
    rw [copyOut, here, if_neg (Ne.symm first), ih held.2 tail (Nat.lt_of_succ_lt_succ room),
      blit_store, List.length_cons, List.cons_append]
    congr 1
    · omega
    · congr 1
      omega

lemma copyOut_long {d : Mem} {v rest : List UInt8} {val n left : Nat} {buf : Mem}
    (held : Holds d val (v ++ 0 :: rest)) (noNul : (0 : UInt8) ∉ v) (full : left ≤ v.length) :
    copyOut d left val n buf = (n + left + 1, n + left, blit buf n (v.take left)) := by
  induction v generalizing val n left buf with
  | nil =>
    obtain rfl := Nat.le_zero.mp full
    rw [copyOut, List.take_nil, blit_nil]
    rfl
  | cons c v ih =>
    cases left with
    | zero =>
      rw [copyOut, List.take_zero, blit_nil]
      rfl
    | succ left =>
      obtain ⟨first, tail⟩ := not_or.mp (mt List.mem_cons.mpr noNul)
      have here : d val = c := held.1
      rw [copyOut, here, if_neg (Ne.symm first), ih held.2 tail (Nat.le_of_succ_le_succ full),
        blit_store, List.take_succ_cons]
      congr 1
      · omega
      · congr 1
        omega

lemma getenvR_eq {envSize : Nat} {d : Mem} {es : List Entry} (stores : Stores envSize d es)
    (header : Nat) (name : Name) (buf : Mem) (len : Nat) :
    getenvR envSize header d name.val buf len =
      match lookup es name with
      | none => some ⟨-1, buf, 0⟩
      | some v =>
        if v.val.length + 1 < len then
          some ⟨v.val.length + 1, blit buf 0 (v.val ++ [0]), v.val.length + 1⟩
        else if v.val.length + 1 = len then
          some ⟨len, store (blit buf 0 (v.val ++ [0])) len 0, len + 1⟩
        else some ⟨len + 1, blit buf 0 (v.val.take len), len⟩ := by
  obtain ⟨tail, htail⟩ := closing_eq_cons es
  have held : Holds d 0 (packed es ++ 0 :: tail) := htail ▸ stores.1
  have inside := used_lt_of_stores stores
  have entries := length_le_used es
  obtain ⟨val, found, value⟩ := getenvLoop_run (n := envSize) header name (envSize + header + 1)
    held
    (by omega) (by omega)
  rw [getenvR, found]
  cases looked : lookup es name with
  | none =>
    rw [looked] at value
    rw [value]
    rfl
  | some v =>
    rw [looked] at value
    obtain ⟨start, rfl, -, rest, text⟩ := value
    have noNul := v.property
    have found : ¬((start : Int) < 0) := by omega
    dsimp only
    rw [if_neg found, Int.toNat_natCast]
    by_cases short : v.val.length < len
    · rw [copyOut_short text noNul short, zero_add]
      by_cases room : v.val.length + 1 < len
      · rw [if_pos room, if_neg (by omega)]
        rfl
      · have exact_ : len = v.val.length + 1 := by omega
        rw [if_neg room, if_pos exact_.symm, if_pos exact_, ← exact_]
    · rw [copyOut_long text noNul (not_lt.mp short), zero_add, if_neg (by omega),
        if_neg (by omega), if_neg (by omega)]
      rfl

lemma not_terminated {v : CStr} {len : Nat} {buf : Mem} (long : len ≤ v.val.length)
    (some_room : 0 < len) : ¬Holds (blit buf 0 (v.val.take len)) 0
      ((if v.val.length < len then v.val else v.val.take (len - 1)) ++ [0]) := by
  intro text
  rw [if_neg (not_lt.mpr long), holds_append, List.length_take, zero_add,
    min_eq_left (by omega)] at text
  have last := blit_inside buf (a := 0) (v.val.take len) (j := len - 1) (by
    rw [List.length_take]
    omega)
  rw [zero_add, text.2.1, List.getElem_take] at last
  have nul : v.val[len - 1] ∈ v.val := List.getElem_mem _
  rw [← last] at nul
  exact v.property nul

/-- A variable is copied as it should be exactly if there are two bytes more than the value has. -/
theorem copied_iff {envSize : Nat} {d : Mem} {es : List Entry} (stores : Stores envSize d es)
    (header : Nat) (name : Name) (buf : Mem) {len : Nat} (some_room : 0 < len) :
    (∃ r, getenvR envSize header d name.val buf len = some r ∧ CopiedTo (lookup es name) len r) ↔
      ∀ v, lookup es name = some v → v.val.length + 2 ≤ len := by
  rw [getenvR_eq stores header name buf len]
  cases lookup es name with
  | none =>
    have failed : ¬(0 : Int) ≤ -1 := by decide
    exact iff_of_true ⟨_, rfl, Nat.zero_le len, fun found => absurd found failed⟩
      (fun _ found => by cases found)
  | some v =>
    dsimp only
    constructor
    · rintro ⟨r, result, inside, copied⟩ w same
      obtain rfl := Option.some.inj same
      by_cases room : v.val.length + 1 < len
      · exact room
      rw [if_neg room] at result
      by_cases full : v.val.length + 1 = len
      · rw [if_pos full] at result
        obtain rfl := Option.some.inj result
        exact absurd inside (Nat.not_succ_le_self len)
      · rw [if_neg full] at result
        obtain rfl := Option.some.inj result
        obtain ⟨w, same, text⟩ := copied (by dsimp only; omega)
        obtain rfl := Option.some.inj same
        exact absurd text (not_terminated (by omega) some_room)
    · intro room
      have more := room v rfl
      rw [if_pos (by omega)]
      refine ⟨_, rfl, by dsimp only; omega, fun _ => ⟨v, rfl, ?_⟩⟩
      rw [if_pos (by omega)]
      exact holds_blit buf 0 _

lemma stores_oneEntry : Stores 16 (ofBytes (image [oneEntry])) [oneEntry] :=
  ⟨holds_ofBytes _, by decide⟩

theorem copied_with_room : ∃ r,
    getenvR 16 4 (ofBytes (image [oneEntry])) [121] (fun _ => 255) 3 = some r ∧
      CopiedTo (lookup [oneEntry] oneEntry.name) 3 r := by
  refine (copied_iff stores_oneEntry 4 oneEntry.name (fun _ => 255) (by decide)).mpr ?_
  intro v found
  obtain rfl := Option.some.inj found
  decide

/-- A value that fills the buffer is closed by a second NUL behind the buffer, and one that is
longer by none. -/
theorem fix_up_misplaced :
    (∃ r, getenvR 16 4 (ofBytes (image [oneEntry])) [121] (fun _ => 255) 2 = some r ∧
      r.n = 2 ∧ r.stored = 3 ∧ ¬CopiedTo (lookup [oneEntry] oneEntry.name) 2 r) ∧
    ∃ r, getenvR 16 4 (ofBytes (image [oneEntry])) [121] (fun _ => 255) 1 = some r ∧
      r.n = 2 ∧ r.buf 0 = 122 ∧ ¬CopiedTo (lookup [oneEntry] oneEntry.name) 1 r := by
  constructor
  · refine ⟨_, rfl, rfl, rfl, ?_⟩
    rintro ⟨inside, -⟩
    exact absurd inside (by decide)
  · refine ⟨_, rfl, rfl, rfl, ?_⟩
    rintro ⟨-, copied⟩
    obtain ⟨v, found, text⟩ := copied (by decide)
    obtain rfl := Option.some.inj found
    exact absurd text.1 (by decide)

end GetenvR
