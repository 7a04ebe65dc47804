import UBoot.Env.EnvMap

/-!
# Setting a variable nothing else depends on

Most callers of `setenv` in the program write variables that `_do_setenv` treats like any
other: such a call is never refused, and only a full environment can keep it from storing.
-/

namespace PlainVariable

open ByteMemory EnvArea SetEnv SetEnvSpec EnvMap

variable {name : Name} {cfg : Config} {es : List Entry}

def Plain (name : Name) : Prop :=
  name.val ≠ [] ∧ name.val ∉ [stdinName, stdoutName, stderrName, serialName, ethaddrName,
    baudrateName]

instance (name : Name) : Decidable (Plain name) := inferInstanceAs (Decidable (_ ∧ _))

lemma refusal_plain (plain : Plain name) (cfg : Config) (baud : UInt32) (es : List Entry)
    (args : List CStr) : refusal cfg baud es name args = none := by
  obtain ⟨-, hnot⟩ := plain
  simp only [List.mem_cons, List.not_mem_nil, or_false, not_or] at hnot
  obtain ⟨hin, hout, herr, hserial, heth, hbaud⟩ := hnot
  have hconsole : checkConsole cfg name.val (rawArgs args) = none := by
    simp [checkConsole, consoleFile, hin, hout, herr]
  have hdelete : checkDelete cfg name.val (rawArgs args) baud = .ok ([], baud) := by
    simp [checkDelete, hserial, heth, hbaud]
  simp [refusal, hconsole, hdelete]

def stored (es : List Entry) (name : Name) (value : CStr) : List Entry :=
  erase es name ++ [⟨name, value⟩]

@[simp] theorem newValue_single (value : CStr) : newValue [value] = value := by
  apply Subtype.ext
  simp [newValue, rawArgs, List.intercalate]

lemma effect_fits (plain : Plain name) {value : CStr}
    (fits : ¬ TooLong cfg.envSize es name [value]) (baud : UInt32) :
    effect cfg baud es name [value] = .stored := by
  simp [effect, refusal_plain plain, fits]

lemma effect_unset (plain : Plain name) (cfg : Config) (es : List Entry) (baud : UInt32) :
    effect cfg baud es name [] = .deleted := by
  simp [effect, refusal_plain plain]

lemma set_stores {b : Board} {value : CStr} (h : Stores cfg.envSize b.env.data es)
    (plain : Plain name) (fits : ¬ TooLong cfg.envSize es name [value]) :
    ∃ r, doSetenv cfg b name.val [value.val] = some r ∧
      Stores cfg.envSize r.board.env.data (stored es name value) := by
  obtain ⟨r, hr, does⟩ := doSetenv_does cfg b h name [value]
  rw [effect_fits plain fits] at does
  have hstores := does.stores
  simp only [entriesAfter, newValue_single] at hstores
  exact ⟨r, hr, hstores⟩

lemma set_overflows {b : Board} {value : CStr} (h : Stores cfg.envSize b.env.data es)
    (plain : Plain name) (long : TooLong cfg.envSize es name [value]) :
    ∃ r, doSetenv cfg b name.val [value.val] = some r ∧
      Stores cfg.envSize r.board.env.data (erase es name) := by
  have heff : effect cfg b.baudrate es name [value] = .overflowed := by
    simp [effect, refusal_plain plain, long]
  obtain ⟨r, hr, does⟩ := doSetenv_does cfg b h name [value]
  rw [heff] at does
  exact ⟨r, hr, does.stores⟩

lemma unset_stores {b : Board} (h : Stores cfg.envSize b.env.data es) (plain : Plain name) :
    ∃ r, doSetenv cfg b name.val [] = some r ∧
      Stores cfg.envSize r.board.env.data (erase es name) := by
  obtain ⟨r, hr, does⟩ := doSetenv_does cfg b h name []
  rw [effect_unset plain] at does
  exact ⟨r, hr, does.stores⟩

lemma distinct_stored (distinct : Distinct es) (plain : Plain name) (value : CStr) :
    Distinct (stored es name value) :=
  distinct_append (distinct_erase distinct name) (erase_undefines distinct name) plain.1 value

lemma lookup_stored (distinct : Distinct es) (name : Name) (value : CStr) :
    lookup (stored es name value) name = some value := by
  rw [stored, lookup_append, lookup_not_defined (erase_undefines distinct name), lookup_cons,
    if_pos rfl]
  rfl

lemma lookup_stored_other {other : Name} (different : other ≠ name) (value : CStr) :
    lookup (stored es name value) other = lookup es other := by
  rw [stored, lookup_append, lookup_erase_other es different, lookup_cons,
    if_neg (fun heq => different heq.symm), lookup_nil, Option.or_none]

lemma lookup_erased (distinct : Distinct es) (name : Name) :
    lookup (erase es name) name = none :=
  lookup_not_defined (erase_undefines distinct name)

end PlainVariable
