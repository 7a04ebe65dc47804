import UBoot.Env.HwConfig

/-!
# Options and sub-options (common/hwconfig.c)

What the queries report of a configuration, put together from what one list reports.
-/

namespace HwConfig

def behind (after : List Opt) : Text :=
  (after.map Opt.item).flatMap fun item => options.stopch :: item.text options

def argPlace (before : List Opt) (opt : Name) : Nat :=
  place options (before.map Opt.item) + opt.text.length + 1

def Config.Listed (c : Config) (opt : Name) : Prop :=
  ∀ o ∈ c.opts, o.name.text = opt.text → ∀ arg, o.arg = some arg → ∃ list, arg = .listed list

/-- The queries for an option and one of its sub-options. A pointer is where the text begins, and
comes with its length. -/
structure Config.Right (c : Config) (opt subopt : Name) : Prop where
  option : hwconfig c.strings opt.text = true ↔ ∃ o ∈ c.opts, o.name.text = opt.text
  argument : ∀ before o after arg, c.opts = before ++ o :: after → o.name.text = opt.text →
    o.arg = some arg → hwconfigArg c.strings opt.text = some (argPlace before opt, arg.text.length)
  noArgument : (∀ o ∈ c.opts, o.name.text = opt.text → o.arg = none) →
    hwconfigArg c.strings opt.text = none
  suboption : c.Listed opt → (hwconfigSub c.strings opt.text subopt.text = true ↔
    ∃ o ∈ c.opts, o.name.text = opt.text ∧ ∃ list, o.arg = some (.listed list) ∧
      ∃ sub ∈ list.subs, sub.name.text = subopt.text)
  subargument : ∀ before o after list, c.opts = before ++ o :: after → o.name.text = opt.text →
    o.arg = some (.listed list) → ∀ subs sub subs' value, list.subs = subs ++ sub :: subs' →
      sub.name.text = subopt.text → sub.value = some value →
        hwconfigSubarg c.strings opt.text subopt.text =
          some (argPlace before opt + (place suboptions (subs.map Suboption.item) +
            subopt.text.length + 1), value.val.length)
  noSubargument : c.Listed opt →
    (∀ o ∈ c.opts, o.name.text = opt.text → ∀ list, o.arg = some (.listed list) →
      ∀ sub ∈ list.subs, sub.name.text = subopt.text → sub.value = none) →
        hwconfigSubarg c.strings opt.text subopt.text = none

/-- The options are unambiguous for the option, and its sub-options, in front of the options behind
it, for the sub-option. -/
structure Config.Meets (c : Config) (opt subopt : Name) : Prop where
  option : Unambiguous options (c.opts.map Opt.item) [] opt.text
  suboption : ∀ before o after list, c.opts = before ++ o :: after → o.name.text = opt.text →
    o.arg = some (.listed list) →
      Unambiguous suboptions (list.subs.map Suboption.item) (behind after) subopt.text

variable {c : UInt8}

lemma not_mem_joined {d : Delimiters} {items : List Item} (other : c ≠ d.stopch)
    (clean : ∀ item ∈ items, c ∉ item.text d) : c ∉ joined d items := by
  cases items with
  | nil => exact List.not_mem_nil
  | cons item items =>
    obtain ⟨here, others⟩ := List.forall_mem_cons.mp clean
    rw [joined, List.mem_append, not_or, List.mem_flatMap]
    refine ⟨here, ?_⟩
    rintro ⟨item', member, there⟩
    rcases List.mem_cons.mp there with same | inside
    · exact other same
    · exact others item' member inside

lemma Name.not_mem (name : Name) (special : ¬ plain c) : c ∉ name.text :=
  fun member => special (name.clean c member)

lemma not_plain (special : c = 59 ∨ c = 58 ∨ c = 44 ∨ c = 61) : ¬ plain c := by
  rintro ⟨-, semicolon, colon, comma, equals⟩
  rcases special with h | h | h | h
  · exact semicolon h
  · exact colon h
  · exact comma h
  · exact equals h

lemma Argument.clean (arg : Argument) : 59 ∉ arg.text := by
  refine not_mem_joined (by decide) fun item member => ?_
  obtain ⟨sub, -, rfl⟩ := List.mem_map.mp member
  rw [Item.text, List.mem_append, not_or]
  refine ⟨sub.name.not_mem (not_plain (.inl rfl)), ?_⟩
  rw [Suboption.item]
  cases sub.value with
  | none => exact List.not_mem_nil
  | some value =>
    refine List.not_mem_cons_of_ne_of_not_mem (by decide) fun inside => ?_
    exact (value.2 59 inside).2.1 rfl

lemma Arg.clean (arg : Arg) : 59 ∉ arg.text := by
  cases arg with
  | listed list => exact list.clean
  | other text => exact fun inside => (text.2 59 inside).2 rfl

lemma Config.level (c : Config) (opt : Name) :
    Level options (c.opts.map Opt.item) [] opt.text where
  nonempty := opt.nonempty
  noStop := opt.not_mem (not_plain (.inl rfl))
  noEq := opt.not_mem (not_plain (.inr (.inl rfl)))
  apart := by decide
  named item member := by
    obtain ⟨o, -, rfl⟩ := List.mem_map.mp member
    exact o.name.nonempty
  names item member := by
    obtain ⟨o, -, rfl⟩ := List.mem_map.mp member
    exact ⟨o.name.not_mem (not_plain (.inl rfl)), o.name.not_mem (not_plain (.inr (.inl rfl)))⟩
  values item member value some_value := by
    obtain ⟨o, -, rfl⟩ := List.mem_map.mp member
    obtain ⟨arg, -, rfl⟩ := Option.map_eq_some_iff.mp some_value
    exact arg.clean
  distinct := by
    rw [List.map_map]
    exact c.distinct
  behind _ none_there := by cases none_there

lemma behind_head? {after : List Opt} (head : (behind after).head? = some c) :
    c = 59 := by
  cases after with
  | nil => cases head
  | cons o after => exact (Option.some.inj head).symm

lemma Argument.level (arg : Argument) (after : List Opt) (subopt : Name) :
    Level suboptions (arg.subs.map Suboption.item) (behind after) subopt.text where
  nonempty := subopt.nonempty
  noStop := subopt.not_mem (not_plain (.inr (.inr (.inl rfl))))
  noEq := subopt.not_mem (not_plain (.inr (.inr (.inr rfl))))
  apart := by decide
  named item member := by
    obtain ⟨sub, -, rfl⟩ := List.mem_map.mp member
    exact sub.name.nonempty
  names item member := by
    obtain ⟨sub, -, rfl⟩ := List.mem_map.mp member
    exact ⟨sub.name.not_mem (not_plain (.inr (.inr (.inl rfl)))),
      sub.name.not_mem (not_plain (.inr (.inr (.inr rfl))))⟩
  values item member value some_value := by
    obtain ⟨sub, -, rfl⟩ := List.mem_map.mp member
    obtain ⟨v, -, rfl⟩ := Option.map_eq_some_iff.mp some_value
    exact fun inside => (v.2 44 inside).2.2 rfl
  distinct := by
    rw [List.map_map]
    exact arg.distinct
  behind c head := by
    rw [behind_head? head]
    decide

lemma reported_map_iff {α : Type} {item : α → Item} {l : List α} {d : Delimiters}
    {rest opt : Text} :
    Reported d (l.map item) rest opt ↔
      ((parseIn d (l.map item) rest opt false).isSome ↔ ∃ a ∈ l, (item a).name = opt) ∧
      (∀ before a after value, l = before ++ a :: after → (item a).name = opt →
        (item a).value = some value →
          parseIn d (l.map item) rest opt true =
            some (place d (before.map item) + opt.length + 1, value.length)) ∧
      ((∀ a ∈ l, (item a).name = opt → (item a).value = none) →
        parseIn d (l.map item) rest opt true = none) := by
  have there : (∃ i ∈ l.map item, i.name = opt) ↔ ∃ a ∈ l, (item a).name = opt := by
    simp only [List.mem_map, exists_exists_and_eq_and]
  constructor
  · intro reported
    refine ⟨reported.present.trans there,
      fun before a after value split named some_value => ?_, fun none_valued => ?_⟩
    · refine reported.value (before.map item) (item a) (after.map item) value ?_ named some_value
      rw [split, List.map_append, List.map_cons]
    · exact reported.noValue (List.forall_mem_map.mpr none_valued)
  · rintro ⟨present, value, noValue⟩
    refine ⟨present.trans there.symm,
      fun before item' after v split named some_value => ?_,
      fun none_valued => noValue (List.forall_mem_map.mp none_valued)⟩
    obtain ⟨before, after, rfl, rfl, behind⟩ := List.map_eq_append_iff.mp split
    obtain ⟨a, after, rfl, rfl, rfl⟩ := List.map_eq_cons_iff.mp behind
    exact value before a after v rfl named some_value

lemma Config.find_eq (c : Config) (opt : Name) (arglen : Bool) :
    hwconfigFind c.strings opt.text arglen =
      parseIn options (c.opts.map Opt.item) [] opt.text arglen := by
  rw [hwconfigFind, c.selected, Option.bind_some, parseIn, List.append_nil]

lemma Config.only (c : Config) {o o' : Opt} {opt : Text} (member : o ∈ c.opts)
    (named : o.name.text = opt) (member' : o' ∈ c.opts) (named' : o'.name.text = opt) : o' = o :=
  List.inj_on_of_nodup_map c.distinct member' member (named'.trans named.symm)

section
variable {c : Config} {before after : List Opt} {o : Opt} {list : Argument} {opt : Name}

lemma Config.drop_argPlace (split : c.opts = before ++ o :: after)
    (named : o.name.text = opt.text) (some_arg : o.arg = some (.listed list)) :
    (c.strings.text.getD []).drop (argPlace before opt) = list.text ++ behind after := by
  have item : o.item.text options = (opt.text ++ [58]) ++ list.text := by
    rw [Opt.item, Item.text, some_arg, named, List.append_assoc]
    rfl
  have length : argPlace before opt =
      place options (before.map Opt.item) + (opt.text ++ [58]).length := by
    rw [argPlace, List.length_append, List.length_singleton, Nat.add_assoc]
  have drop := @drop_place options (before.map Opt.item) (after.map Opt.item) o.item []
  rw [c.selected, Option.getD_some, split, List.map_append, List.map_cons, length,
    ← List.drop_drop]
  rw [List.append_nil, List.append_nil] at drop
  rw [drop, item, List.append_assoc, List.drop_left]
  rfl

lemma Config.subFind_eq (split : c.opts = before ++ o :: after) (named : o.name.text = opt.text)
    (some_arg : o.arg = some (.listed list))
    (found : hwconfigArg c.strings opt.text = some (argPlace before opt, list.text.length))
    (subopt : Name) (arglen : Bool) :
    hwconfigSubFind c.strings opt.text subopt.text arglen =
      (parseIn suboptions (list.subs.map Suboption.item) (behind after) subopt.text arglen).map
        fun sub => (argPlace before opt + sub.1, sub.2) := by
  rw [hwconfigArg] at found
  rw [hwconfigSubFind, found, Option.bind_some]
  rw [Config.drop_argPlace split named some_arg]
  rfl

end

section
variable {c : Config} {before after : List Opt} {o : Opt} {list : Argument} {opt subopt : Name}

lemma Config.options_iff :
    Reported options (c.opts.map Opt.item) [] opt.text ↔
      (hwconfig c.strings opt.text = true ↔ ∃ o ∈ c.opts, o.name.text = opt.text) ∧
      (∀ before o after arg, c.opts = before ++ o :: after → o.name.text = opt.text →
        o.arg = some arg →
          hwconfigArg c.strings opt.text = some (argPlace before opt, arg.text.length)) ∧
      ((∀ o ∈ c.opts, o.name.text = opt.text → o.arg = none) →
        hwconfigArg c.strings opt.text = none) := by
  rw [reported_map_iff, hwconfig, hwconfigArg, c.find_eq, c.find_eq]
  refine and_congr Iff.rfl (and_congr ⟨fun value => ?_, fun argument => ?_⟩ ?_)
  · intro before o after arg split named some_arg
    exact value before o after arg.text split named (by rw [Opt.item, some_arg]; rfl)
  · intro before o after value split named some_value
    obtain ⟨arg, some_arg, rfl⟩ := Option.map_eq_some_iff.mp some_value
    exact argument before o after arg split named some_arg
  · refine imp_congr (forall₃_congr fun o _ _ => ?_) Iff.rfl
    rw [Opt.item, Option.map_eq_none_iff]

lemma Config.suboptions_iff (split : c.opts = before ++ o :: after)
    (named : o.name.text = opt.text) (some_arg : o.arg = some (.listed list))
    (found : hwconfigArg c.strings opt.text = some (argPlace before opt, list.text.length)) :
    Reported suboptions (list.subs.map Suboption.item) (behind after) subopt.text ↔
      (hwconfigSub c.strings opt.text subopt.text = true ↔
        ∃ sub ∈ list.subs, sub.name.text = subopt.text) ∧
      (∀ subs sub subs' value, list.subs = subs ++ sub :: subs' →
        sub.name.text = subopt.text → sub.value = some value →
          hwconfigSubarg c.strings opt.text subopt.text =
            some (argPlace before opt + (place suboptions (subs.map Suboption.item) +
              subopt.text.length + 1), value.val.length)) ∧
      ((∀ sub ∈ list.subs, sub.name.text = subopt.text → sub.value = none) →
        hwconfigSubarg c.strings opt.text subopt.text = none) := by
  have shifted (returned : Option (Nat × Nat)) (p length : Nat) :
      returned.map (fun sub => (argPlace before opt + sub.1, sub.2)) =
        some (argPlace before opt + p, length) ↔ returned = some (p, length) := by
    cases returned with
    | none => exact iff_of_false (Option.some_ne_none _).symm (Option.some_ne_none _).symm
    | some sub =>
      simp only [Option.map_some, Option.some_inj, Prod.ext_iff, Nat.add_left_cancel_iff]
  rw [reported_map_iff, hwconfigSub, hwconfigSubarg, Config.subFind_eq split named some_arg found,
    Config.subFind_eq split named some_arg found, Option.isSome_map, Option.map_eq_none_iff]
  refine and_congr Iff.rfl (and_congr ⟨fun value => ?_, fun subargument => ?_⟩ ?_)
  · intro subs sub subs' v split' named' some_value
    rw [shifted]
    exact value subs sub subs' v.val split' named' (by rw [Suboption.item, some_value]; rfl)
  · intro subs sub subs' v split' named' some_value
    obtain ⟨value, valued, rfl⟩ := Option.map_eq_some_iff.mp some_value
    exact (shifted _ _ _).mp (subargument subs sub subs' value split' named' valued)
  · refine imp_congr (forall₃_congr fun sub _ _ => ?_) Iff.rfl
    rw [Suboption.item, Option.map_eq_none_iff]

lemma Config.listed (split : c.opts = before ++ o :: after) (named : o.name.text = opt.text)
    (some_arg : o.arg = some (.listed list)) : c.Listed opt := by
  intro o' member' named' arg some_arg'
  obtain rfl := c.only (by rw [split]; simp) named member' named'
  exact ⟨list, Option.some.inj (some_arg'.symm.trans some_arg)⟩

lemma Config.right_iff :
    c.Right opt subopt ↔
      Reported options (c.opts.map Opt.item) [] opt.text ∧
      ∀ before o after list, c.opts = before ++ o :: after → o.name.text = opt.text →
        o.arg = some (.listed list) →
          Reported suboptions (list.subs.map Suboption.item) (behind after) subopt.text := by
  constructor
  · intro right
    refine ⟨Config.options_iff.mpr ⟨right.option, right.argument, right.noArgument⟩,
      fun before o after list split named some_arg => ?_⟩
    have listed := Config.listed split named some_arg
    have member : o ∈ c.opts := by rw [split]; simp
    refine (Config.suboptions_iff split named some_arg
      (right.argument before o after _ split named some_arg)).mpr ⟨?_, ?_, fun none_valued => ?_⟩
    · rw [right.suboption listed]
      constructor
      · rintro ⟨o', member', named', list', some_arg', there⟩
        obtain rfl := c.only member named member' named'
        rw [some_arg] at some_arg'
        cases some_arg'
        exact there
      · exact fun there => ⟨o, member, named, list, some_arg, there⟩
    · exact right.subargument before o after list split named some_arg
    · refine right.noSubargument listed fun o' member' named' list' some_arg' => ?_
      obtain rfl := c.only member named member' named'
      rw [some_arg] at some_arg'
      cases some_arg'
      exact none_valued
  · rintro ⟨reported, subs⟩
    obtain ⟨option, argument, noArgument⟩ := Config.options_iff.mp reported
    have inside {before o after list} (split : c.opts = before ++ o :: after)
        (named : o.name.text = opt.text) (some_arg : o.arg = some (.listed list)) :=
      (Config.suboptions_iff split named some_arg
        (argument before o after _ split named some_arg)).mp
        (subs before o after list split named some_arg)
    -- without a list of sub-options nothing is looked for
    have nothing (listed : c.Listed opt) (none_listed : ∀ o ∈ c.opts, o.name.text = opt.text →
        ∀ list, o.arg ≠ some (.listed list)) (arglen : Bool) :
        hwconfigSubFind c.strings opt.text subopt.text arglen = none := by
      have no_arg := noArgument fun o member named => by
        cases some_arg : o.arg with
        | none => rfl
        | some arg =>
          obtain ⟨list, rfl⟩ := listed o member named arg some_arg
          exact absurd some_arg (none_listed o member named list)
      rw [hwconfigArg] at no_arg
      rw [hwconfigSubFind, no_arg, Option.bind_none]
    refine ⟨option, argument, noArgument, fun listed => ?_,
      fun before o after list split named some_arg => (inside split named some_arg).2.1,
      fun listed none_valued => ?_⟩
    · by_cases there : ∃ o ∈ c.opts, o.name.text = opt.text ∧ ∃ list, o.arg = some (.listed list)
      · obtain ⟨o, member, named, list, some_arg⟩ := there
        obtain ⟨before, after, split⟩ := List.append_of_mem member
        rw [(inside split named some_arg).1]
        constructor
        · exact fun sub => ⟨o, member, named, list, some_arg, sub⟩
        · rintro ⟨o', member', named', list', some_arg', sub⟩
          obtain rfl := c.only member named member' named'
          rw [some_arg] at some_arg'
          cases some_arg'
          exact sub
      · rw [hwconfigSub, nothing listed fun o member named list some_arg =>
          there ⟨o, member, named, list, some_arg⟩]
        refine iff_of_false Bool.false_ne_true ?_
        rintro ⟨o, member, named, list, some_arg, -⟩
        exact there ⟨o, member, named, list, some_arg⟩
    · by_cases there : ∃ o ∈ c.opts, o.name.text = opt.text ∧ ∃ list, o.arg = some (.listed list)
      · obtain ⟨o, member, named, list, some_arg⟩ := there
        obtain ⟨before, after, split⟩ := List.append_of_mem member
        exact (inside split named some_arg).2.2 (none_valued o member named list some_arg)
      · exact nothing listed (fun o member named list some_arg =>
          there ⟨o, member, named, list, some_arg⟩) true

end

/-- The queries are right if and only if neither list is ambiguous. -/
theorem hwconfig_right_iff (c : Config) (opt subopt : Name) :
    c.Right opt subopt ↔ c.Meets opt subopt := by
  rw [Config.right_iff, (c.level opt).reported_iff]
  constructor
  · rintro ⟨unambiguous, subs⟩
    exact ⟨unambiguous, fun before o after list split named some_arg =>
      (list.level after subopt).reported_iff.mp (subs before o after list split named some_arg)⟩
  · rintro ⟨unambiguous, subs⟩
    exact ⟨unambiguous, fun before o after list split named some_arg =>
      (list.level after subopt).reported_iff.mpr (subs before o after list split named some_arg)⟩

def letter (c : UInt8) (ok : plain c) : Name :=
  ⟨[c], List.cons_ne_nil c [], List.forall_mem_singleton.mpr ok⟩

def nameA : Name := letter 97 (by decide)

def nameB : Name := letter 98 (by decide)

def nameX : Name := letter 120 (by decide)

def twoOptions : Config where
  opts := [⟨nameA, some (.listed ⟨[⟨nameX, none⟩], by decide⟩)⟩, ⟨nameB, none⟩]
  distinct := by decide
  strings := ⟨some [97, 58, 120, 59, 98], none, none⟩
  selected := by decide

/-- The sub-option "x" is the last of "a", another option follows, and it is not found. -/
theorem last_suboption_missed : ¬ ∀ (c : Config) (opt subopt : Name), c.Right opt subopt := by
  intro right
  have listed : twoOptions.Listed nameA := @Config.listed twoOptions [] _ _ _ nameA rfl rfl rfl
  have found := ((right twoOptions nameA nameX).suboption listed).mpr
    ⟨_, List.mem_cons_self, rfl, _, rfl, _, List.mem_cons_self, rfl⟩
  exact absurd found (by decide)

end HwConfig
