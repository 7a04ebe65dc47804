import UBoot.Env.SetEnvSpec
import UBoot.Lib.Runs

/-!
# The environment area is a finite map

Over a whole run of calls `getenv` returns what the reported results say: the
value of the last successful set, and nothing after a deletion or a reported
overflow.
-/

namespace EnvMap

open ByteMemory EnvArea SetEnv AreaScan SetEnvSpec Runs

variable {es : List Entry}

@[simp] theorem lookup_nil (name : Name) : lookup [] name = none := rfl

lemma lookup_cons (e : Entry) (es : List Entry) (name : Name) :
    lookup (e :: es) name = if e.name = name then some e.value else lookup es name := by
  by_cases h : e.name = name
  · simp [lookup, h]
  · simp [lookup, h]

lemma lookup_not_defined {name : Name} (h : ¬ Defines es name) :
    lookup es name = none := by
  induction es with
  | nil => rfl
  | cons e es ih =>
    have hne : e.name ≠ name := fun heq => h ⟨e, List.mem_cons_self, heq⟩
    rw [lookup_cons, if_neg hne]
    exact ih (fun ⟨f, hf, hname⟩ => h ⟨f, List.mem_cons_of_mem _ hf, hname⟩)

lemma lookup_append (es fs : List Entry) (name : Name) :
    lookup (es ++ fs) name = (lookup es name).or (lookup fs name) := by
  induction es with
  | nil => simp
  | cons e es ih =>
    rw [List.cons_append, lookup_cons, lookup_cons]
    by_cases h : e.name = name
    · rw [if_pos h, if_pos h]
      rfl
    · rw [if_neg h, if_neg h]
      exact ih

lemma erase_cons (e : Entry) (es : List Entry) (name : Name) :
    erase (e :: es) name = if e.name = name then es else e :: erase es name := by
  by_cases h : e.name = name
  · simp [erase, h]
  · simp [erase, h]

lemma lookup_erase_other (es : List Entry) {name other : Name} (different : other ≠ name) :
    lookup (erase es name) other = lookup es other := by
  induction es with
  | nil => rfl
  | cons e es ih =>
    rw [erase_cons, lookup_cons]
    by_cases h : e.name = name
    · have hne : e.name ≠ other := fun heq => different (heq ▸ h)
      rw [if_pos h, if_neg hne]
    · rw [if_neg h, lookup_cons, ih]

lemma erase_undefines (distinct : Distinct es) (name : Name) :
    ¬ Defines (erase es name) name := by
  by_cases hdef : Defines es name
  · obtain ⟨pre, e, post, rfl, hname, hpre, herase⟩ := split_at_first hdef
    rw [herase]
    rintro ⟨f, hf, hfname⟩
    have hnodup := distinct.1
    rw [List.map_append, List.map_cons, List.nodup_append] at hnodup
    rcases List.mem_append.mp hf with hmem | hmem
    · exact hpre ⟨f, hmem, hfname⟩
    have hnot := (List.nodup_cons.mp hnodup.2.1).1
    apply hnot
    rw [hname, ← hfname]
    exact List.mem_map_of_mem hmem
  · rw [erase_not_defined hdef]
    exact hdef

lemma distinct_erase (distinct : Distinct es) (name : Name) :
    Distinct (erase es name) := by
  have hsub := erase_sublist es name
  refine ⟨distinct.1.sublist (hsub.map _), ?_⟩
  intro e he
  exact distinct.2 e (hsub.subset he)

lemma distinct_append (distinct : Distinct es) {name : Name} (fresh : ¬ Defines es name)
    (nonempty : name.val ≠ []) (value : CStr) :
    Distinct (es ++ [⟨name, value⟩]) := by
  constructor
  · rw [List.map_append, List.nodup_append]
    refine ⟨distinct.1, by simp, ?_⟩
    intro x hx y hy heq
    obtain ⟨e, he, rfl⟩ := List.mem_map.mp hx
    have hy' : y = name := by simpa using hy
    exact fresh ⟨e, he, heq.trans hy'⟩
  · intro e he
    rcases List.mem_append.mp he with hmem | hmem
    · exact distinct.2 e hmem
    · rw [List.mem_singleton.mp hmem]
      exact nonempty

lemma getenvSkip_text {d : Mem} {t rest : List UInt8} {a : Nat} (left : Nat)
    (held : Holds d a (t ++ 0 :: rest)) (noNul : (0 : UInt8) ∉ t) (room : t.length ≤ left) :
    getenvSkip d left a = some (a + t.length) := by
  induction t generalizing a left with
  | nil =>
    have ha : d a = 0 := held.1
    cases left with
    | zero => simp [getenvSkip, ha]
    | succ left => simp [getenvSkip, ha]
  | cons c t ih =>
    obtain ⟨left, rfl⟩ := Nat.exists_eq_add_of_le' (show 1 ≤ left by simp at room; omega)
    have hc : d a ≠ 0 := by
      rw [held.1]
      exact fun heq => noNul (heq ▸ List.mem_cons_self)
    have hnext := ih left held.2
      (fun hm => noNul (List.mem_cons_of_mem _ hm)) (by simpa using room)
    simp only [getenvSkip, if_neg hc, hnext, List.length_cons]
    congr 1
    omega

lemma getenvLoop_run {n : Nat} {d : Mem} {tail : List UInt8} {a : Nat} (header : Nat)
    (name : Name) (fuel : Nat) (held : Holds d a (packed es ++ 0 :: tail)) (room : a + used es < n)
    (enough : es.length < fuel) :
    ∃ val, getenvLoop n header d name.val fuel a = some val ∧
      match lookup es name with
      | none => val = -1
      | some v => ∃ at_ : Nat, val = at_ ∧ at_ + v.val.length < n ∧
          ∃ rest, Holds d at_ (v.val ++ 0 :: rest) := by
  induction es generalizing fuel a with
  | nil =>
    obtain ⟨fuel, rfl⟩ := Nat.exists_eq_add_of_lt enough
    have ha : d a = 0 := held.1
    exact ⟨-1, by simp [getenvLoop, ha], rfl⟩
  | cons e es ih =>
    obtain ⟨fuel, rfl⟩ := Nat.exists_eq_add_of_lt enough
    obtain ⟨hentry, hrest⟩ := holds_entry held
    have hsize := e.text_length
    rw [used_cons] at room
    have hskip := getenvSkip_text (n + header - a) hentry e.text_no_nul (by omega)
    have hmatch := envmatch_entry name hentry
    rw [getenvLoop, if_neg (entry_first_ne_zero hentry), hskip]
    simp only [hmatch]
    by_cases h : e.name = name
    · rw [if_pos h, if_neg (by omega), lookup_cons, if_pos h]
      refine ⟨_, rfl, a + name.val.length + 1, rfl, ?_, packed es ++ 0 :: tail, ?_⟩
      · rw [← h]
        simp only [Entry.size] at hsize room
        omega
      · have hvalue : Holds d a (e.name.val ++ 61 :: (e.value.val ++ 0 :: (packed es ++ 0 :: tail))) := by
          simpa [Entry.text] using hentry
        rw [← h]
        exact (holds_append.mp hvalue).2.2
    · have hnext := ih ((e :: es).length + fuel) hrest (by omega) (by simp; omega)
      rw [if_neg h, if_pos (by decide), lookup_cons, if_neg h,
        show a + e.text.length + 1 = a + e.size by omega]
      exact hnext

lemma getenv_of_stores {n : Nat} {d : Mem} (h : Stores n d es) (header : Nat) (name : Name) :
    getenv n header d name.val = some ((lookup es name).map Subtype.val) := by
  obtain ⟨tail, htail⟩ := closing_eq_cons es
  have held : Holds d 0 (packed es ++ 0 :: tail) := htail ▸ h.1
  have hlt := used_lt_of_stores h
  have hle := length_le_used es
  obtain ⟨val, hrun, hval⟩ := getenvLoop_run (n := n) header name (n + header + 1)
    held (by omega) (by omega)
  rw [getenv, hrun]
  cases hlook : lookup es name with
  | none =>
    rw [hlook] at hval
    simp [hval]
  | some v =>
    rw [hlook] at hval
    obtain ⟨at_, rfl, hin, rest, hheld⟩ := hval
    have hskip := skipToNul_text (n - at_) hheld v.property (by omega)
    have hslice : slice d at_ v.val.length = v.val := slice_of_holds (holds_append.mp hheld).1
    simp [hskip, hslice]

variable {cfg : Config}

/-- A call of `_do_setenv` with a non-empty name. -/
structure Call where
  name : Name
  args : List CStr
  named : name.val ≠ []

structure Session where
  board : Board
  history : List (Call × SetResult)

variable {s : Session}

def call (cfg : Config) (s : Session) (c : Call) : Option Session :=
  (doSetenv cfg s.board c.name.val (rawArgs c.args)).map
    (fun r => ⟨r.board, s.history ++ [(c, r)]⟩)

/-- What a reported result says about its own name: set, gone (deleted, or lost to an
overflow), or nothing. -/
def verdict (c : Call) (r : SetResult) : Option (Option CStr) :=
  if r.rc = 0 then some (if c.args = [] then none else some (newValue c.args))
  else if .overflow c.name.val ∈ r.out then some none
  else none

def lastVerdict (history : List (Call × SetResult)) (name : Name) : Option (Option CStr) :=
  history.reverse.findSome? (fun p => if p.1.name = name then verdict p.1 p.2 else none)

@[simp] theorem lastVerdict_nil (name : Name) : lastVerdict [] name = none := rfl

lemma lastVerdict_snoc (history : List (Call × SetResult)) (c : Call) (r : SetResult)
    (name : Name) :
    lastVerdict (history ++ [(c, r)]) name =
      (if c.name = name then verdict c r else none).or (lastVerdict history name) := by
  simp only [lastVerdict, List.reverse_append, List.reverse_cons, List.reverse_nil,
    List.nil_append, List.singleton_append, List.findSome?_cons]
  cases (if c.name = name then verdict c r else none) with
  | none => rfl
  | some v => rfl

lemma call_step {b : Board} {c : Call} {r : SetResult} (distinct : Distinct es)
    (does : Does cfg b es c.name c.args (effect cfg b.baudrate es c.name c.args) r) :
    ∃ fs, Stores cfg.envSize r.board.env.data fs ∧ Distinct fs ∧
      (∀ other, other ≠ c.name → lookup fs other = lookup es other) ∧
      lookup fs c.name = (verdict c r).getD (lookup es c.name) := by
  refine ⟨_, does.stores, ?_⟩
  have hgone := erase_undefines distinct c.name
  cases heff : effect cfg b.baudrate es c.name c.args with
  | refused =>
    rw [heff] at does
    have hrc : r.rc ≠ 0 := fun h => by simpa using does.rc_zero.mp h
    have hout : Message.overflow c.name.val ∉ r.out := fun h => by simpa using does.reports.mp h
    refine ⟨distinct, fun _ _ => rfl, ?_⟩
    simp [entriesAfter, verdict, hrc, hout]
  | deleted =>
    rw [heff] at does
    have hrc : r.rc = 0 := does.rc_zero.mpr (.inl rfl)
    refine ⟨distinct_erase distinct _, fun other hne => lookup_erase_other es hne, ?_⟩
    simp [entriesAfter, verdict, hrc, effect_deleted heff, lookup_not_defined hgone]
  | overflowed =>
    rw [heff] at does
    have hrc : r.rc ≠ 0 := fun h => by simpa using does.rc_zero.mp h
    have hout : Message.overflow c.name.val ∈ r.out := does.reports.mpr rfl
    refine ⟨distinct_erase distinct _, fun other hne => lookup_erase_other es hne, ?_⟩
    simp [entriesAfter, verdict, hrc, hout, lookup_not_defined hgone]
  | stored =>
    rw [heff] at does
    have hrc : r.rc = 0 := does.rc_zero.mpr (.inr rfl)
    refine ⟨distinct_append (distinct_erase distinct _) hgone c.named _, ?_, ?_⟩
    · intro other hne
      have hlast : lookup [⟨c.name, newValue c.args⟩] other = none := by
        rw [lookup_cons, if_neg (fun heq => hne heq.symm), lookup_nil]
      simp [entriesAfter, lookup_append, hlast, lookup_erase_other es hne]
    · have hlast : lookup [⟨c.name, newValue c.args⟩] c.name = some (newValue c.args) := by
        rw [lookup_cons, if_pos rfl]
      simp [entriesAfter, lookup_append, lookup_not_defined hgone, hlast, verdict, hrc,
        effect_stored heff]

/-- What every state of a session has in common with the area it started from. -/
structure Follows (cfg : Config) (start : Mem) (es0 : List Entry) (s : Session) : Prop where
  map : ∃ es, Stores cfg.envSize s.board.env.data es ∧ Distinct es ∧
    ∀ name, lookup es name = (lastVerdict s.history name).getD (lookup es0 name)
  inside : ∀ i, cfg.envSize ≤ i → s.board.env.data i = start i

lemma follows_call {start : Mem} {es0 : List Entry} (h : Follows cfg start es0 s) (c : Call) :
    ∃ t, call cfg s c = some t ∧ Follows cfg start es0 t := by
  obtain ⟨es, hstores, hdistinct, hmap⟩ := h.map
  obtain ⟨r, hcall, does⟩ := doSetenv_does cfg s.board hstores c.name c.args
  obtain ⟨fs, hfs, hfsDistinct, hother, hself⟩ := call_step hdistinct does
  refine ⟨⟨r.board, s.history ++ [(c, r)]⟩, by rw [call, hcall]; rfl, ⟨fs, hfs, hfsDistinct, ?_⟩, ?_⟩
  · intro name
    simp only [lastVerdict_snoc]
    by_cases hname : name = c.name
    · subst hname
      rw [hself, hmap, if_pos rfl]
      cases verdict c r with
      | none => simp
      | some v => simp
    · rw [hother name hname, hmap, if_neg (fun heq => hname heq.symm), Option.none_or]
  · intro i hi
    exact (does.inside i hi).trans (h.inside i hi)

lemma getenv_other {b : Board} (h : Stores cfg.envSize b.env.data es) (distinct : Distinct es)
    (c : Call) {r : SetResult} (hcall : doSetenv cfg b c.name.val (rawArgs c.args) = some r)
    (header : Nat) {other : Name} (different : other ≠ c.name) :
    getenv cfg.envSize header r.board.env.data other.val =
      getenv cfg.envSize header b.env.data other.val := by
  obtain ⟨r', hcall', does⟩ := doSetenv_does cfg b h c.name c.args
  obtain rfl : r' = r := Option.some.inj (hcall'.symm.trans hcall)
  obtain ⟨fs, hfs, -, hother, -⟩ := call_step distinct does
  rw [getenv_of_stores hfs, getenv_of_stores h, hother other different]

lemma call_board {t : Session} {c : Call} (h : call cfg s c = some t) :
    ∃ r, doSetenv cfg s.board c.name.val (rawArgs c.args) = some r ∧ t.board = r.board ∧
      t.history = s.history ++ [(c, r)] := by
  unfold call at h
  cases hr : doSetenv cfg s.board c.name.val (rawArgs c.args) with
  | none => simp [hr] at h
  | some r =>
    rw [hr] at h
    obtain rfl : (⟨r.board, s.history ++ [(c, r)]⟩ : Session) = t := Option.some.inj h
    exact ⟨r, rfl, rfl, rfl⟩

lemma follows_start {b : Board} (h : Stores cfg.envSize b.env.data es) (distinct : Distinct es) :
    Follows cfg b.env.data es ⟨b, []⟩ :=
  ⟨⟨es, h, distinct, fun _ => rfl⟩, fun _ _ => rfl⟩

lemma follows_run {start : Mem} {es0 : List Entry} (h : Follows cfg start es0 s)
    (calls : List Call) :
    ∃ t, runFrom (call cfg) s calls = some t ∧ Follows cfg start es0 t :=
  invariant_of_total (fun _ c hinv => follows_call hinv c) h calls

lemma history_run {t : Session} {calls : List Call} (h : runFrom (call cfg) s calls = some t) :
    t.history.map Prod.fst = s.history.map Prod.fst ++ calls := by
  induction calls generalizing s with
  | nil =>
    obtain rfl : s = t := Option.some.inj h
    simp
  | cons c calls ih =>
    cases hc : call cfg s c with
    | none => simp [runFrom, hc] at h
    | some u =>
      obtain ⟨r, -, -, hhist⟩ := call_board hc
      rw [runFrom_cons hc] at h
      simp [ih h, hhist]

/-- The area is a finite map: after any calls it is well formed inside ENV_SIZE, `getenv` returns
what the last call that reported something about the name said, and each single call left
every other name alone. -/
theorem environment_is_finite_map (cfg : Config) (header : Nat) (b : Board)
    (wf : WellFormed cfg.envSize b.env.data) (calls : List Call) :
    ∃ t, runFrom (call cfg) ⟨b, []⟩ calls = some t ∧
      t.history.map Prod.fst = calls ∧
      WellFormed cfg.envSize t.board.env.data ∧
      (∀ i, cfg.envSize ≤ i → t.board.env.data i = b.env.data i) ∧
      (∀ name : Name,
        getenv cfg.envSize header t.board.env.data name.val =
          match lastVerdict t.history name with
          | some v => some (v.map Subtype.val)
          | none => getenv cfg.envSize header b.env.data name.val) ∧
      ∀ pre c post, calls = pre ++ c :: post → ∃ s r,
        runFrom (call cfg) ⟨b, []⟩ pre = some s ∧
        doSetenv cfg s.board c.name.val (rawArgs c.args) = some r ∧
        ∀ other : Name, other ≠ c.name →
          getenv cfg.envSize header r.board.env.data other.val =
            getenv cfg.envSize header s.board.env.data other.val := by
  obtain ⟨es0, hstores0, hdistinct0⟩ := wf
  have hstart := follows_start (b := b) hstores0 hdistinct0
  obtain ⟨t, hrun, hfollows⟩ := follows_run hstart calls
  obtain ⟨es, hstores, hdistinct, hmap⟩ := hfollows.map
  refine ⟨t, hrun, by simpa using history_run hrun, ⟨es, hstores, hdistinct⟩, hfollows.inside,
    ?_, ?_⟩
  · intro name
    rw [getenv_of_stores hstores, getenv_of_stores hstores0, hmap]
    cases lastVerdict t.history name with
    | none => rfl
    | some v => rfl
  · rintro pre c post -
    obtain ⟨s, hpre, hs⟩ := follows_run hstart pre
    obtain ⟨fs, hfs, hfsDistinct, -⟩ := hs.map
    obtain ⟨r, hcall, -⟩ := doSetenv_does cfg s.board hfs c.name c.args
    exact ⟨s, r, hpre, hcall, fun other hne => getenv_other hfs hfsDistinct c hcall header hne⟩

-- "y=z" in an area of 16 bytes, and the call that sets "yx" to "="
def oneEntry : Entry := ⟨⟨[121], by decide⟩, ⟨[122], by decide⟩⟩
def oneEntryBoard : Board := ⟨⟨0, 0, ofBytes (image [oneEntry])⟩, 0, 115200, 0, 0, []⟩
def setLonger : Call := ⟨⟨[121, 120], by decide⟩, [⟨[61], by decide⟩], by decide⟩

lemma oneEntry_wellFormed : WellFormed 16 oneEntryBoard.env.data :=
  ⟨[oneEntry], ⟨holds_ofBytes _, by decide⟩, by simp, by simp [oneEntry]⟩

theorem environment_is_finite_map_longer_name :
    WellFormed 16 oneEntryBoard.env.data ∧
      ∃ t, runFrom (call ⟨16, [], fun _ _ => 0, []⟩) ⟨oneEntryBoard, []⟩ [setLonger] = some t ∧
        WellFormed 16 t.board.env.data ∧
        getenv 16 4 t.board.env.data [121] =
          match lastVerdict t.history oneEntry.name with
          | some v => some (v.map Subtype.val)
          | none => getenv 16 4 oneEntryBoard.env.data [121] := by
  obtain ⟨t, hrun, -, hwf, -, hget, -⟩ := environment_is_finite_map ⟨16, [], fun _ _ => 0, []⟩ 4
    oneEntryBoard oneEntry_wellFormed [setLonger]
  exact ⟨oneEntry_wellFormed, t, hrun, hwf, hget oneEntry.name⟩

end EnvMap
