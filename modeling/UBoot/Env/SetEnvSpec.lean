import UBoot.Env.AreaEdit

/-!
# What one call of `_do_setenv` does to a well-formed area

Four effects, decided by the board, the entries and the arguments. The checksum
is brought up to date by two of them; an overflow is the one exit that can leave
an edited area with the checksum of the old one.
-/

namespace SetEnvSpec

open ByteMemory EnvArea SetEnv AreaScan AreaEdit

variable {cfg : Config} {baud : UInt32} {es : List Entry} {name : List UInt8}
    {args : List (List UInt8)} {out : List Message}

inductive Effect where
  | refused
  | deleted
  | stored
  | overflowed
  deriving DecidableEq

/-- The arguments as `_do_setenv` receives them. -/
def rawArgs (args : List CStr) : List (List UInt8) := args.map Subtype.val

lemma join_no_nul (args : List CStr) : (0 : UInt8) ∉ List.intercalate [32] (rawArgs args) := by
  cases args with
  | nil => simp [rawArgs, List.intercalate]
  | cons v vs =>
    have hall : ∀ w ∈ rawArgs (v :: vs), (0 : UInt8) ∉ w := by
      intro w hw
      obtain ⟨s, -, rfl⟩ := List.mem_map.mp hw
      exact s.property
    have h := joinArgs_no_nul 61 (by decide) hall
    rw [rawArgs, List.map_cons, joinArgs_cons] at h
    exact fun hmem => h (List.mem_cons_of_mem _ hmem)

def newValue (args : List CStr) : CStr :=
  ⟨List.intercalate [32] (rawArgs args), join_no_nul args⟩

def refusal (cfg : Config) (baud : UInt32) (es : List Entry) (name : Name) (args : List CStr) :
    Option (List Message) :=
  match checkConsole cfg name.val (rawArgs args) with
  | some out => some out
  | none =>
    if Defines es name then
      match checkDelete cfg name.val (rawArgs args) baud with
      | .error out => some out
      | .ok _ => none
    else none

/-- "name" + "=" + "val" + "\0\0" does not fit behind the other entries. -/
def TooLong (n : Nat) (es : List Entry) (name : Name) (args : List CStr) : Prop :=
  n - used (erase es name) < neededLen name.val (rawArgs args)

instance (n : Nat) (es : List Entry) (name : Name) (args : List CStr) :
    Decidable (TooLong n es name args) :=
  inferInstanceAs (Decidable (_ < _))

def effect (cfg : Config) (baud : UInt32) (es : List Entry) (name : Name) (args : List CStr) :
    Effect :=
  if (refusal cfg baud es name args).isSome then .refused
  else if args = [] then .deleted
  else if TooLong cfg.envSize es name args then .overflowed
  else .stored

lemma effect_deleted {name : Name} {args : List CStr}
    (h : effect cfg baud es name args = .deleted) : args = [] := by
  unfold effect at h
  split_ifs at h with _ hargs
  exact hargs

lemma effect_stored {name : Name} {args : List CStr} (h : effect cfg baud es name args = .stored)
    : args ≠ [] := by
  unfold effect at h
  split_ifs at h with _ hargs
  exact hargs

lemma effect_no_args (cfg : Config) (baud : UInt32) (es : List Entry) (name : Name) :
    effect cfg baud es name [] ≠ .overflowed := by
  unfold effect
  split_ifs with _ hargs
  · simp
  · simp
  · exact absurd rfl hargs
  · exact absurd rfl hargs

def entriesAfter (es : List Entry) (name : Name) (args : List CStr) : Effect → List Entry
  | .refused => es
  | .deleted => erase es name
  | .overflowed => erase es name
  | .stored => erase es name ++ [⟨name, newValue args⟩]

/-- The area `d'` is `d` after the first definition of the name was deleted from it. -/
def DeletedFrom (n : Nat) (d : Mem) (es : List Entry) (name : Name) (d' : Mem) : Prop :=
  ∃ pre e post, es = pre ++ e :: post ∧ e.name = name ∧ ¬ Defines pre name ∧
    deleteEntry n d (used pre) (used pre + e.text.length) = some d'

structure Does (cfg : Config) (b : Board) (es : List Entry) (name : Name) (args : List CStr)
    (eff : Effect) (r : SetResult) : Prop where
  stores : Stores cfg.envSize r.board.env.data (entriesAfter es name args eff)
  rc_zero : r.rc = 0 ↔ eff = .deleted ∨ eff = .stored
  reports : .overflow name.val ∈ r.out ↔ eff = .overflowed
  crc_updated : eff = .deleted ∨ eff = .stored → CrcOk cfg.envSize r.board.env
  untouched : eff = .refused → r.board.env = b.env
  crc_stale : eff = .overflowed → r.board.env.crc = b.env.crc
  not_edited : eff = .overflowed → ¬ Defines es name → r.board.env = b.env
  old_gone : eff = .overflowed → Defines es name →
    DeletedFrom cfg.envSize b.env.data es name r.board.env.data
  inside : ∀ i, cfg.envSize ≤ i → r.board.env.data i = b.env.data i

lemma crcOk_update (n : Nat) (e : EnvT) : CrcOk n (envCrcUpdate n e) := rfl

@[simp] theorem envCrcUpdate_data (n : Nat) (e : EnvT) : (envCrcUpdate n e).data = e.data := rfl

@[simp] theorem afterSet_env (b : Board) (name value : List UInt8) :
    (afterSet b name value).env = b.env := by
  unfold afterSet
  split_ifs <;> rfl

lemma neededLen_entry (name : Name) (v : CStr) (vs : List CStr) :
    neededLen name.val (rawArgs (v :: vs)) =
      (Entry.mk name (newValue (v :: vs))).size + 1 := by
  have hlen := joinArgs_length 61 (rawArgs (v :: vs))
  rw [rawArgs, List.map_cons, joinArgs_cons] at hlen
  simp only [neededLen, Entry.size, newValue, rawArgs, List.map_cons] at hlen ⊢
  rw [List.length_cons] at hlen
  omega

lemma appended_text (name : Name) (v : CStr) (vs : List CStr) :
    name.val ++ joinArgs 61 (rawArgs (v :: vs)) =
      (Entry.mk name (newValue (v :: vs))).text := by
  rw [rawArgs, List.map_cons, joinArgs_cons]
  rfl

lemma stores_append {n : Nat} {d : Mem} (h : Stores n d es) (name : Name) (v : CStr)
    (vs : List CStr) (fits : neededLen name.val (rawArgs (v :: vs)) ≤ n - used es) :
    Stores n (writeEntry d (used es) name.val (rawArgs (v :: vs)))
      (es ++ [⟨name, newValue (v :: vs)⟩]) ∧
    ∀ i, n ≤ i → writeEntry d (used es) name.val (rawArgs (v :: vs)) i = d i := by
  have hlt := used_lt_of_stores h
  obtain ⟨hheld, hframe⟩ := writeEntry_run d (used es) name.val (rawArgs (v :: vs))
  have hsize := neededLen_entry name v vs
  have htext := (Entry.mk name (newValue (v :: vs))).text_length
  rw [appended_text] at hheld
  obtain ⟨hpacked, -⟩ := holds_append.mp h.1
  refine ⟨⟨?_, ?_⟩, fun i hi => hframe i (.inr (by omega))⟩
  · have himage : image (es ++ [⟨name, newValue (v :: vs)⟩]) =
        packed es ++ ((Entry.mk name (newValue (v :: vs))).text ++ [0, 0]) := by
      rw [image_split, packed_cons, packed_nil]
      simp
    rw [himage, holds_append, zero_add]
    refine ⟨holds_congr (fun i _ hi => hframe i (.inl ?_)) hpacked, hheld⟩
    simpa [used] using hi
  · rw [image_split, packed_cons, packed_nil]
    simp only [List.length_append, List.length_cons, List.length_nil]
    simp only [used] at fits hlt
    omega

lemma checkConsole_no_overflow (h : checkConsole cfg name args = some out) (m : List UInt8) :
    Message.overflow m ∉ out := by
  unfold checkConsole at h
  cases hc : consoleFile name with
  | none => simp [hc] at h
  | some console =>
    cases args with
    | nil =>
      simp only [hc, Option.some.injEq] at h
      simp [← h]
    | cons v vs =>
      by_cases hneg : cfg.consoleAssign console v < 0
      · simp only [hc, if_pos hneg, Option.some.injEq] at h
        simp [← h]
      · simp [hc, hneg] at h

lemma checkDelete_error_no_overflow (h : checkDelete cfg name args baud = .error out)
    (m : List UInt8) :
    Message.overflow m ∉ out := by
  unfold checkDelete at h
  split_ifs at h with hserial hbaud
  · cases h; simp
  dsimp only at h
  split_ifs at h
  cases h
  simp

lemma checkDelete_ok_no_overflow {out : List Message × UInt32}
    (h : checkDelete cfg name args baud = .ok out) (m : List UInt8) :
    Message.overflow m ∉ out.1 := by
  unfold checkDelete at h
  split_ifs at h with hserial hbaud
  · dsimp only at h
    split_ifs at h
    cases h
    simp
  · cases h
    simp

lemma appendDefinition_does {b b1 : Board} {name : Name} {args : List CStr}
    (h : Stores cfg.envSize b1.env.data (erase es name)) (hcrc : b1.env.crc = b.env.crc)
    (hsame : ¬ Defines es name → b1.env = b.env)
    (hgone : Defines es name → DeletedFrom cfg.envSize b.env.data es name b1.env.data)
    (hinside : ∀ i, cfg.envSize ≤ i → b1.env.data i = b.env.data i)
    (hout : ∀ m, Message.overflow m ∉ out) (allowed : refusal cfg b.baudrate es name args = none) :
    ∃ r, appendDefinition cfg b1 out name.val (rawArgs args) = some r ∧
      Does cfg b es name args (effect cfg b.baudrate es name args) r := by
  have hnot : ¬ (refusal cfg b.baudrate es name args).isSome = true := by simp [allowed]
  cases args with
  | nil =>
    have heff : effect cfg b.baudrate es name [] = .deleted := by
      rw [effect, if_neg hnot, if_pos rfl]
    refine ⟨_, rfl, ?_⟩
    rw [heff]
    exact { stores := h, rc_zero := by simp, reports := by simp [hout],
            crc_updated := fun _ => crcOk_update _ _, untouched := by simp,
            crc_stale := by simp, not_edited := by simp, old_gone := by simp,
            inside := hinside }
  | cons v vs =>
    have happ := appendOffset_of_stores h
    by_cases hlong : TooLong cfg.envSize es name (v :: vs)
    · have heff : effect cfg b.baudrate es name (v :: vs) = .overflowed := by
        rw [effect, if_neg hnot, if_neg (List.cons_ne_nil v vs), if_pos hlong]
      refine ⟨⟨1, out ++ [.overflow name.val], b1⟩, ?_, ?_⟩
      · simp only [appendDefinition, rawArgs, List.map_cons, happ]
        exact if_pos hlong
      · rw [heff]
        exact { stores := h, rc_zero := by simp, reports := by simp,
                crc_updated := by simp, untouched := by simp,
                crc_stale := fun _ => hcrc, not_edited := fun _ => hsame,
                old_gone := fun _ => hgone, inside := hinside }
    have heff : effect cfg b.baudrate es name (v :: vs) = .stored := by
      rw [effect, if_neg hnot, if_neg (List.cons_ne_nil v vs), if_neg hlong]
    obtain ⟨hstores, hframe⟩ := stores_append h name v vs (not_lt.mp hlong)
    let data := writeEntry b1.env.data (used (erase es name)) name.val (rawArgs (v :: vs))
    let env := envCrcUpdate cfg.envSize { b1.env with data := data }
    refine ⟨⟨0, out, afterSet { b1 with env := env } name.val v.val⟩, ?_, ?_⟩
    · simp only [appendDefinition, rawArgs, List.map_cons, happ]
      exact if_neg hlong
    · rw [heff]
      refine { stores := ?_, rc_zero := by simp, reports := by simp [hout],
               crc_updated := fun _ => ?_, untouched := by simp,
               crc_stale := by simp, not_edited := by simp, old_gone := by simp,
               inside := ?_ }
      · rw [afterSet_env]
        exact hstores
      · rw [afterSet_env]
        exact crcOk_update _ _
      · intro i hi
        rw [afterSet_env]
        exact (hframe i hi).trans (hinside i hi)

lemma doSetenv_does (cfg : Config) (b : Board) (h : Stores cfg.envSize b.env.data es)
    (name : Name) (args : List CStr) :
    ∃ r, doSetenv cfg b name.val (rawArgs args) = some r ∧
      Does cfg b es name args (effect cfg b.baudrate es name args) r := by
  obtain ⟨tail, htail⟩ := closing_eq_cons es
  have held : Holds b.env.data 0 (packed es ++ 0 :: tail) := htail ▸ h.1
  have hlt := used_lt_of_stores h
  have hfuel : es.length < cfg.envSize + 1 := by
    have hle := length_le_used es
    omega
  -- the result of a call that gives up early
  have refuses : ∀ out, refusal cfg b.baudrate es name args = some out →
      (∀ m, Message.overflow m ∉ out) →
      Does cfg b es name args (effect cfg b.baudrate es name args)
        ⟨1, out, { b with envId := b.envId + 1 }⟩ := by
    intro out hrefusal hout
    have heff : effect cfg b.baudrate es name args = .refused := by
      rw [effect, if_pos (by simp [hrefusal])]
    rw [heff]
    exact { stores := h, rc_zero := by simp, reports := by simp [hout],
            crc_updated := by simp, untouched := fun _ => rfl, crc_stale := by simp,
            not_edited := by simp, old_gone := by simp, inside := fun _ _ => rfl }
  by_cases hdef : Defines es name
  · obtain ⟨pre, e, post, rfl, hname, hpre, herase⟩ := split_at_first hdef
    have hsearch := search_present (n := cfg.envSize) (cfg.envSize + 1) 0 held
      hpre hname (by omega) (by simp at hfuel; omega)
    simp only [doSetenv, if_neg name.property.2, hsearch]
    cases hconsole : checkConsole cfg name.val (rawArgs args) with
    | some out =>
      have hrefusal : refusal cfg b.baudrate (pre ++ e :: post) name args = some out := by
        simp [refusal, hconsole]
      exact ⟨_, rfl, refuses out hrefusal (checkConsole_no_overflow hconsole)⟩
    | none =>
      rw [if_pos (by omega)]
      cases hdelete : checkDelete cfg name.val (rawArgs args) b.baudrate with
      | error out =>
        have hrefusal : refusal cfg b.baudrate (pre ++ e :: post) name args = some out := by
          simp [refusal, hconsole, hdef, hdelete]
        exact ⟨_, rfl, refuses out hrefusal (checkDelete_error_no_overflow hdelete)⟩
      | ok ok =>
        have hrefusal : refusal cfg b.baudrate (pre ++ e :: post) name args = none := by
          simp [refusal, hconsole, hdef, hdelete]
        obtain ⟨d', hdel, hstores, hframe⟩ := deleteEntry_of_stores h
        rw [zero_add]
        simp only [hdel]
        exact appendDefinition_does (b := b) (herase ▸ hstores) rfl (fun hno => absurd hdef hno)
          (fun _ => ⟨pre, e, post, rfl, hname, hpre, hdel⟩) hframe
          (checkDelete_ok_no_overflow hdelete) hrefusal
  · obtain ⟨nxt, hsearch⟩ := search_absent (n := cfg.envSize)
      (cfg.envSize + 1) 0 held hdef (by omega) hfuel
    simp only [doSetenv, if_neg name.property.2, hsearch]
    cases hconsole : checkConsole cfg name.val (rawArgs args) with
    | some out =>
      have hrefusal : refusal cfg b.baudrate es name args = some out := by
        simp [refusal, hconsole]
      exact ⟨_, rfl, refuses out hrefusal (checkConsole_no_overflow hconsole)⟩
    | none =>
      have hrefusal : refusal cfg b.baudrate es name args = none := by
        simp [refusal, hconsole, hdef]
      rw [if_neg (by decide)]
      refine appendDefinition_does (b := b) ?_ rfl (fun _ => rfl) (fun h => absurd h hdef)
        (fun _ _ => rfl) (by simp) hrefusal
      rw [erase_not_defined hdef]
      exact h

end SetEnvSpec
