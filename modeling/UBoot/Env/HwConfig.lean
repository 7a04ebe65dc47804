import Mathlib.Data.List.Nodup
import UBoot.Lib.Prefixes

/-!
# The hardware configuration in the environment (common/hwconfig.c)

A string is the list of its characters without the NUL, and a pointer into it is a distance. Lengths
are numbers; none of the differences that the functions build is negative for a string of options.
-/

namespace HwConfig

open Occurrences

abbrev Text := List UInt8

structure Delimiters where
  stopch : UInt8
  eqch : UInt8

def options : Delimiters := ⟨59, 58⟩

def suboptions : Delimiters := ⟨44, 61⟩

def strstr (text : Text) (opts : Nat) (opt : Text) : Option Nat :=
  (first opt (text.drop opts)).map (opts + ·)

/-- "*end == stopch || *end == eqch || *end == '\0'" -/
def Ends (text : Text) (d : Delimiters) (stop : Nat) : Prop :=
  text[stop]? = some d.stopch ∨ text[stop]? = some d.eqch ∨ text[stop]? = none

instance Ends.decidable (text : Text) (d : Delimiters) (stop : Nat) :
    Decidable (Ends text d stop) :=
  inferInstanceAs (Decidable (_ ∨ _))

/-- The loop from `next` on, up to the occurrence that it accepts. -/
def search (text : Text) (maxlen : Nat) (opt : Text) (d : Delimiters) :
    (fuel : Nat) → (opts : Nat) → Option Nat
  | 0, _ => none
  | fuel + 1, opts =>
    match strstr text opts opt with
    | none => none
    | some str =>
      let stop := str + opt.length
      if maxlen < stop then none
      else if (str = opts ∨ text[str - 1]? = some d.stopch) ∧ Ends text d stop then some str
      else search text maxlen opt d fuel stop

/-- `hwconfig_parse`: the pointer, and `*arglen` where `arglen` is not NULL. -/
def hwconfigParse (text : Text) (maxlen : Nat) (opt : Text) (d : Delimiters) (arglen : Bool) :
    Option (Nat × Nat) :=
  match search text maxlen opt d (text.length + 1) 0 with
  | none => none
  | some str =>
    let stop := str + opt.length
    if ¬ arglen then some (str, 0)
    else if text[stop]? ≠ some d.eqch then none
    else match (text.drop str).findIdx? (· = d.stopch) with
      | none => some (stop + 1, min maxlen (text.drop str).length - opt.length - 1)
      | some argEnd => some (stop + 1, argEnd - opt.length - 1)

/-- The variable "hwconfig", `board_hwconfig` and `cpu_hwconfig`. -/
structure Strings where
  env : Option Text
  board : Option Text
  cpu : Option Text

def Strings.text (s : Strings) : Option Text := s.env <|> s.board <|> s.cpu

def hwconfigFind (s : Strings) (opt : Text) (arglen : Bool) : Option (Nat × Nat) :=
  s.text.bind fun text => hwconfigParse text text.length opt options arglen

def hwconfig (s : Strings) (opt : Text) : Bool := (hwconfigFind s opt false).isSome

def hwconfigArg (s : Strings) (opt : Text) : Option (Nat × Nat) := hwconfigFind s opt true

def hwconfigSubFind (s : Strings) (opt subopt : Text) (arglen : Bool) : Option (Nat × Nat) :=
  (hwconfigFind s opt true).bind fun arg =>
    (hwconfigParse ((s.text.getD []).drop arg.1) arg.2 subopt suboptions arglen).map fun sub =>
      (arg.1 + sub.1, sub.2)

def hwconfigSub (s : Strings) (opt subopt : Text) : Bool :=
  (hwconfigSubFind s opt subopt false).isSome

def hwconfigSubarg (s : Strings) (opt subopt : Text) : Option (Nat × Nat) :=
  hwconfigSubFind s opt subopt true

/-! ## Lists of options -/

structure Item where
  name : Text
  value : Option Text

def Item.text (d : Delimiters) (item : Item) : Text :=
  item.name ++ match item.value with
    | none => []
    | some value => d.eqch :: value

def joined (d : Delimiters) : List Item → Text
  | [] => []
  | item :: items => item.text d ++ items.flatMap fun item => d.stopch :: item.text d

def place (d : Delimiters) (before : List Item) : Nat :=
  (before.flatMap fun item => item.text d ++ [d.stopch]).length

def plain (c : UInt8) : Prop := c ≠ 0 ∧ c ≠ 59 ∧ c ≠ 58 ∧ c ≠ 44 ∧ c ≠ 61

instance plain.decidable (c : UInt8) : Decidable (plain c) :=
  inferInstanceAs (Decidable (_ ∧ _))

structure Name where
  text : Text
  nonempty : text ≠ []
  clean : ∀ c ∈ text, plain c

structure Suboption where
  name : Name
  value : Option { value : Text // ∀ c ∈ value, c ≠ 0 ∧ c ≠ 59 ∧ c ≠ 44 }

def Suboption.item (sub : Suboption) : Item := ⟨sub.name.text, sub.value.map (·.val)⟩

structure Argument where
  subs : List Suboption
  distinct : (subs.map (·.name.text)).Nodup

def Argument.text (arg : Argument) : Text := joined suboptions (arg.subs.map Suboption.item)

inductive Arg where
  | listed (arg : Argument)
  | other (text : { text : Text // ∀ c ∈ text, c ≠ 0 ∧ c ≠ 59 })

def Arg.text : Arg → Text
  | listed arg => arg.text
  | other text => text

structure Opt where
  name : Name
  arg : Option Arg

def Opt.item (opt : Opt) : Item := ⟨opt.name.text, opt.arg.map Arg.text⟩

/-- A configuration, and strings of which the one that counts is made of it. -/
structure Config where
  opts : List Opt
  distinct : (opts.map (·.name.text)).Nodup
  strings : Strings
  selected : strings.text = some (joined options (opts.map Opt.item))

/-! ## What is asked of one list -/

/-- The occurrences inside the first `maxlen` characters that a search comes to. -/
def visited (text : Text) (maxlen : Nat) (opt : Text) : List Hit :=
  (hits opt text (text.length + 1) 0).takeWhile (·.place + opt.length ≤ maxlen)

def Begins (text : Text) (d : Delimiters) (p : Nat) : Prop := p = 0 ∨ text[p - 1]? = some d.stopch

instance Begins.decidable (text : Text) (d : Delimiters) (p : Nat) : Decidable (Begins text d p) :=
  inferInstanceAs (Decidable (_ ∨ _))

/-- The places at which the name follows directly upon itself inside an item, with a delimiter or
the end of the string behind it. -/
def stutters (text : Text) (maxlen : Nat) (opt : Text) (d : Delimiters) : List Nat :=
  ((visited text maxlen opt).filter fun h =>
    h.touches ∧ ¬ Begins text d h.place ∧ Ends text d (h.place + opt.length)).map Hit.place

def stuttersIn (d : Delimiters) (items : List Item) (rest opt : Text) : List Nat :=
  stutters (joined d items ++ rest) (joined d items).length opt d

/-- `hwconfig_parse` of a list in front of further text. -/
def parseIn (d : Delimiters) (items : List Item) (rest opt : Text) (arglen : Bool) :
    Option (Nat × Nat) :=
  hwconfigParse (joined d items ++ rest) (joined d items).length opt d arglen

structure Reported (d : Delimiters) (items : List Item) (rest opt : Text) : Prop where
  present : (parseIn d items rest opt false).isSome ↔ ∃ item ∈ items, item.name = opt
  value : ∀ before item after value, items = before ++ item :: after → item.name = opt →
    item.value = some value →
      parseIn d items rest opt true =
        some (place d before + opt.length + 1, value.length)
  noValue : (∀ item ∈ items, item.name = opt → item.value = none) →
    parseIn d items rest opt true = none

/-- Without such an item there is no stutter. An item without a value is not the last in front of
further text, or there is a stutter, and no stutter in front of it shows a value. In front of an
item with a value there is none, and behind the last item there is no further text, or text without
the delimiter and no item in front. -/
structure Unambiguous (d : Delimiters) (items : List Item) (rest opt : Text) : Prop where
  absent : (∀ item ∈ items, item.name ≠ opt) →
    stuttersIn d items rest opt = []
  noValue : ∀ before item after, items = before ++ item :: after → item.name = opt →
    item.value = none →
      (after ≠ [] ∨ rest = [] ∨
        stuttersIn d items rest opt ≠ []) ∧
      ∀ s, (stuttersIn d items rest opt).head? = some s →
        s < place d before → (joined d items ++ rest)[s + opt.length]? ≠ some d.eqch
  value : ∀ before item after value, items = before ++ item :: after → item.name = opt →
    item.value = some value →
      (∀ s ∈ stuttersIn d items rest opt,
        place d before < s) ∧
      (after = [] → rest = [] ∨ before = [] ∧ d.stopch ∉ rest)

/-! ## The search -/

variable {str : Nat}

def Taken (text : Text) (opt : Text) (d : Delimiters) (h : Hit) : Prop :=
  (h.touches ∨ text[h.place - 1]? = some d.stopch) ∧ Ends text d (h.place + opt.length)

instance Taken.decidable (text : Text) (opt : Text) (d : Delimiters) (h : Hit) :
    Decidable (Taken text opt d h) :=
  inferInstanceAs (Decidable (_ ∧ _))

section
variable {text opt : Text} {maxlen : Nat} {d : Delimiters}

lemma search_eq (fuel opts : Nat) :
    search text maxlen opt d fuel opts =
      (((hits opt text fuel opts).takeWhile (·.place + opt.length ≤ maxlen)).find?
        (Taken text opt d ·)).map Hit.place := by
  induction fuel generalizing opts with
  | zero => rfl
  | succ fuel ih =>
    rw [search, hits, strstr]
    cases first opt (text.drop opts) with
    | none => rfl
    | some k =>
      dsimp only [Option.map_some]
      by_cases outside : maxlen < opts + k + opt.length
      · rw [if_pos outside, List.takeWhile_cons_of_neg (by simpa using outside)]
        rfl
      have inside : opts + k + opt.length ≤ maxlen := not_lt.mp outside
      rw [if_neg outside, List.takeWhile_cons_of_pos (by simpa using inside)]
      have same : ((opts + k = opts ∨ text[opts + k - 1]? = some d.stopch) ∧
          Ends text d (opts + k + opt.length)) ↔ Taken text opt d ⟨opts + k, k = 0⟩ := by
        rw [Taken, decide_eq_true_iff, Nat.add_eq_left]
      by_cases taken : Taken text opt d ⟨opts + k, k = 0⟩
      · rw [List.find?_cons_of_pos (by simpa using taken), if_pos (same.mpr taken)]
        rfl
      · rw [List.find?_cons_of_neg (by simpa using taken),
          if_neg fun here => taken (same.mp here), ih]

lemma visited_ordered (nonempty : opt ≠ []) :
    (visited text maxlen opt).Pairwise fun h h' => h.place < h'.place := by
  have pos := List.length_pos_iff.mpr nonempty
  refine ((hits_pairwise _ _).imp fun apart => ?_).sublist (List.takeWhile_sublist _)
  omega

lemma search_eq_some_iff (nonempty : opt ≠ []) :
    search text maxlen opt d (text.length + 1) 0 = some str ↔
      (∃ h ∈ visited text maxlen opt, Taken text opt d h ∧ h.place = str) ∧
        ∀ h ∈ visited text maxlen opt, Taken text opt d h → str ≤ h.place := by
  rw [search_eq, Option.map_eq_some_iff]
  constructor
  · rintro ⟨h, found, rfl⟩
    obtain ⟨member, taken, least⟩ := (find?_eq_some_iff (visited_ordered nonempty)).mp found
    exact ⟨⟨h, member, by simpa using taken, rfl⟩,
      fun h' member' taken' => least h' member' (by simpa using taken')⟩
  · rintro ⟨⟨h, member, taken, rfl⟩, least⟩
    refine ⟨h, (find?_eq_some_iff (visited_ordered nonempty)).mpr
      ⟨member, by simpa using taken, fun h' member' taken' => ?_⟩, rfl⟩
    exact least h' member' (by simpa using taken')

lemma search_eq_none_iff :
    search text maxlen opt d (text.length + 1) 0 = none ↔
      ∀ h ∈ visited text maxlen opt, ¬ Taken text opt d h := by
  rw [search_eq, Option.map_eq_none_iff, List.find?_eq_none]
  exact forall₂_congr fun h _ => by rw [decide_eq_true_iff]

lemma mem_visited_iff (nonempty : opt ≠ []) {h : Hit} :
    h ∈ visited text maxlen opt ↔
      h ∈ hits opt text (text.length + 1) 0 ∧ h.place + opt.length ≤ maxlen := by
  have pos := List.length_pos_iff.mpr nonempty
  exact mem_takeWhile_iff ((hits_pairwise _ _).imp fun apart => by omega)

lemma mem_stutters_iff {p : Nat} :
    p ∈ stutters text maxlen opt d ↔ ∃ h ∈ visited text maxlen opt, h.place = p ∧ h.touches ∧
      ¬ Begins text d p ∧ Ends text d (p + opt.length) := by
  rw [stutters, List.mem_map]
  constructor
  · rintro ⟨h, member, rfl⟩
    obtain ⟨inside, kind⟩ := List.mem_filter.mp member
    exact ⟨h, inside, rfl, by simpa using kind⟩
  · rintro ⟨h, inside, rfl, kind⟩
    exact ⟨h, List.mem_filter.mpr ⟨inside, by simpa using kind⟩, rfl⟩

lemma taken_iff (nonempty : opt ≠ []) {h : Hit} (member : h ∈ visited text maxlen opt) :
    Taken text opt d h ↔ h.place ∈ stutters text maxlen opt d ∨
      Begins text d h.place ∧ Ends text d (h.place + opt.length) := by
  rw [mem_stutters_iff]
  constructor
  · rintro ⟨begins, ends⟩
    by_cases atStart : Begins text d h.place
    · exact .inr ⟨atStart, ends⟩
    · have touches : h.touches := begins.resolve_right fun behind => atStart (.inr behind)
      exact .inl ⟨h, member, rfl, touches, atStart, ends⟩
  · rintro (⟨h', member', same, touches, -, ends⟩ | ⟨atStart, ends⟩)
    · have distinct : ((visited text maxlen opt).map Hit.place).Nodup :=
        List.pairwise_map.mpr ((visited_ordered nonempty).imp ne_of_lt)
      obtain rfl := List.inj_on_of_nodup_map distinct member' member same
      exact ⟨.inl touches, ends⟩
    · refine ⟨atStart.imp (fun zero => ?_) id, ends⟩
      exact (hits_occurs ((mem_visited_iff nonempty).mp member).1).2.2 zero

end

/-! ## The items of a list -/

/-- A list whose names and values are free of the delimiters that stand around them, in front of
further text that begins with none of them, and a name that is looked for. -/
structure Level (d : Delimiters) (items : List Item) (rest opt : Text) : Prop where
  nonempty : opt ≠ []
  noStop : d.stopch ∉ opt
  noEq : d.eqch ∉ opt
  apart : d.stopch ≠ d.eqch
  named : ∀ item ∈ items, item.name ≠ []
  names : ∀ item ∈ items, d.stopch ∉ item.name ∧ d.eqch ∉ item.name
  values : ∀ item ∈ items, ∀ value, item.value = some value → d.stopch ∉ value
  distinct : (items.map Item.name).Nodup
  behind : ∀ c, rest.head? = some c → c ≠ d.stopch ∧ c ≠ d.eqch

section
variable {d : Delimiters} {items before after : List Item} {item : Item} {rest opt : Text}

lemma joined_append (before after : List Item) (item : Item) :
    joined d (before ++ item :: after) =
      (before.flatMap fun item => item.text d ++ [d.stopch]) ++
        (item.text d ++ after.flatMap fun item => d.stopch :: item.text d) := by
  induction before with
  | nil => rfl
  | cons first before ih =>
    rw [List.cons_append, joined, List.flatMap_cons, List.append_assoc, ← ih]
    cases before with
    | nil => simp [joined]
    | cons second before => simp [joined]

lemma drop_place (rest : Text) :
    (joined d (before ++ item :: after) ++ rest).drop (place d before) =
      item.text d ++ ((after.flatMap fun item => d.stopch :: item.text d) ++ rest) := by
  rw [joined_append, List.append_assoc, List.append_assoc]
  exact List.drop_left

lemma length_joined :
    (joined d (before ++ item :: after)).length = place d before + (item.text d).length +
      (after.flatMap fun item => d.stopch :: item.text d).length := by
  rw [joined_append, List.length_append, List.length_append, place, Nat.add_assoc]

lemma begins_place (rest : Text) : Begins (joined d (before ++ item :: after) ++ rest) d
    (place d before) := by
  rcases List.eq_nil_or_concat before with rfl | ⟨front, last, rfl⟩
  · exact .inl rfl
  refine .inr ?_
  have whole : (front.concat last).flatMap (fun item => item.text d ++ [d.stopch]) =
      (front.flatMap (fun item => item.text d ++ [d.stopch]) ++ last.text d) ++ [d.stopch] := by
    rw [List.concat_eq_append, List.flatMap_append, List.flatMap_singleton, List.append_assoc]
  rw [joined_append, place, whole, List.length_append, List.length_singleton, Nat.add_sub_cancel,
    List.append_assoc, List.append_assoc, List.getElem?_append_right le_rfl,
    Nat.sub_self]
  rfl

lemma getElem?_name (rest : Text) {k : Nat} (inside : k < item.name.length) :
    (joined d (before ++ item :: after) ++ rest)[place d before + k]? = item.name[k]? := by
  rw [← List.getElem?_drop, drop_place, Item.text, List.append_assoc,
    List.getElem?_append_left inside]

lemma getElem?_behind_name (rest : Text) :
    (joined d (before ++ item :: after) ++ rest)[place d before + item.name.length]? =
      if item.value.isSome then some d.eqch
      else if after ≠ [] then some d.stopch else rest.head? := by
  rw [← List.getElem?_drop, drop_place, Item.text, List.append_assoc,
    List.getElem?_append_right le_rfl, Nat.sub_self]
  cases value : item.value with
  | some v => rfl
  | none =>
    cases after with
    | nil =>
      rw [List.flatMap_nil, List.nil_append, List.nil_append, List.head?_eq_getElem?]
      rfl
    | cons next after => rfl

lemma Level.stop_not_mem_text (level : Level d items rest opt) (member : item ∈ items) :
    d.stopch ∉ item.text d := by
  rw [Item.text, List.mem_append, not_or]
  refine ⟨(level.names item member).1, ?_⟩
  cases value : item.value with
  | none => exact List.not_mem_nil
  | some v =>
    rw [List.mem_cons, not_or]
    exact ⟨level.apart, level.values item member v value⟩

lemma exists_item (clean : ∀ item ∈ items, d.stopch ∉ item.text d) {p : Nat}
    (inside : p < (joined d items).length) (begins : Begins (joined d items) d p) :
    ∃ before item after, items = before ++ item :: after ∧ place d before = p := by
  induction items generalizing p with
  | nil => exact absurd inside (Nat.not_lt_zero p)
  | cons item items ih =>
    rcases Nat.eq_zero_or_pos p with rfl | pos
    · exact ⟨[], item, items, rfl, rfl⟩
    have behind := begins.resolve_left (Nat.ne_of_gt pos)
    obtain ⟨here, others⟩ := List.forall_mem_cons.mp clean
    have outside : ¬ p - 1 < (item.text d).length := by
      intro less
      rw [joined, List.getElem?_append_left less] at behind
      exact here (List.mem_of_getElem? behind)
    cases items with
    | nil =>
      rw [joined, List.flatMap_nil, List.append_nil] at inside
      omega
    | cons next items =>
      have whole : joined d (item :: next :: items) =
          item.text d ++ ([d.stopch] ++ joined d (next :: items)) := rfl
      rw [whole, List.getElem?_append_right (not_lt.mp outside)] at behind
      rw [whole, List.length_append, List.length_append, List.length_singleton] at inside
      by_cases first : p = (item.text d).length + 1
      · refine ⟨[item], next, items, rfl, ?_⟩
        rw [place, List.flatMap_singleton, List.length_append, List.length_singleton, first]
      obtain ⟨before, found, after, split, at_place⟩ :=
        @ih others (p - ((item.text d).length + 1)) (by omega) (.inr (by
          rw [List.getElem?_append_right (by rw [List.length_singleton]; omega)] at behind
          rw [← behind, List.length_singleton]
          congr 1
          omega))
      refine ⟨item :: before, found, after, by rw [split]; rfl, ?_⟩
      rw [place, List.flatMap_cons, List.length_append, List.length_append,
        List.length_singleton, ← place, at_place]
      omega

end

section
variable {d : Delimiters} {items before after : List Item} {item : Item} {rest opt : Text}

lemma Level.clean (level : Level d items rest opt) : ∀ item ∈ items, d.stopch ∉ item.text d :=
  fun _ member => level.stop_not_mem_text member

lemma Level.ends_iff (level : Level d (before ++ item :: after) rest opt)
    (named : item.name = opt) :
    Ends (joined d (before ++ item :: after) ++ rest) d (place d before + opt.length) ↔
      item.value.isSome ∨ after ≠ [] ∨ rest = [] := by
  rw [Ends, ← named, getElem?_behind_name]
  by_cases value : item.value.isSome
  · rw [if_pos value]
    exact iff_of_true (.inr (.inl rfl)) (.inl value)
  rw [if_neg value]
  by_cases more : after ≠ []
  · rw [if_pos more]
    exact iff_of_true (.inl rfl) (.inr (.inl more))
  rw [if_neg more]
  cases rest with
  | nil => exact iff_of_true (.inr (.inr rfl)) (.inr (.inr rfl))
  | cons c rest =>
    obtain ⟨notStop, notEq⟩ := level.behind c rfl
    refine iff_of_false ?_ ?_
    · rintro (stop | eq | none)
      · exact notStop (Option.some.inj stop)
      · exact notEq (Option.some.inj eq)
      · cases none
    · rintro (some_value | later | empty)
      · exact value some_value
      · exact more later
      · cases empty

lemma Level.name_eq (level : Level d (before ++ item :: after) rest opt)
    (occurs : OccursAt opt (joined d (before ++ item :: after) ++ rest) (place d before))
    (inside : place d before + opt.length ≤ (joined d (before ++ item :: after)).length)
    (ends : Ends (joined d (before ++ item :: after) ++ rest) d (place d before + opt.length)) :
    item.name = opt := by
  have member : item ∈ before ++ item :: after := by simp
  obtain ⟨noStop, noEq⟩ := level.names item member
  have letters (k : Nat) (less : k < opt.length) (less' : k < item.name.length) :
      opt[k]? = item.name[k]? := by
    rw [← occurs.getElem? less, getElem?_name rest less']
  rcases lt_trichotomy opt.length item.name.length with less | same | more
  · have there := @getElem?_name d before after item rest _ less
    rw [List.getElem?_eq_getElem less] at there
    rw [Ends, there] at ends
    rcases ends with stop | eq | none
    · exact absurd (Option.some.inj stop ▸ List.getElem_mem less) noStop
    · exact absurd (Option.some.inj eq ▸ List.getElem_mem less) noEq
    · cases none
  · refine (List.ext_getElem? fun k => ?_).symm
    by_cases less : k < opt.length
    · exact letters k less (same ▸ less)
    · rw [List.getElem?_eq_none (not_lt.mp less),
        List.getElem?_eq_none (same ▸ not_lt.mp less)]
  · have there := @getElem?_behind_name d before after item rest
    rw [occurs.getElem? more, List.getElem?_eq_getElem more] at there
    by_cases value : item.value.isSome
    · rw [if_pos value] at there
      exact absurd (Option.some.inj there ▸ List.getElem_mem more) level.noEq
    rw [if_neg value] at there
    by_cases later : after ≠ []
    · rw [if_pos later] at there
      exact absurd (Option.some.inj there ▸ List.getElem_mem more) level.noStop
    have no_value : item.value = none := Option.not_isSome_iff_eq_none.mp value
    rw [length_joined, Item.text, no_value, not_not.mp later] at inside
    simp only [List.append_nil, List.flatMap_nil, List.length_nil] at inside
    omega

lemma Level.exists_visited (level : Level d (before ++ item :: after) rest opt)
    (named : item.name = opt) :
    ∃ h ∈ visited (joined d (before ++ item :: after) ++ rest)
      (joined d (before ++ item :: after)).length opt, h.place = place d before := by
  have occurs : OccursAt opt (joined d (before ++ item :: after) ++ rest) (place d before) := by
    rw [OccursAt, drop_place, Item.text, named, List.append_assoc]
    exact List.prefix_append _ _
  have inside : place d before + opt.length ≤ (joined d (before ++ item :: after)).length := by
    rw [length_joined, Item.text, List.length_append, named]
    omega
  have free (p : Nat) (less : p < place d before) (reaches : place d before < p + opt.length) :
      ¬ OccursAt opt (joined d (before ++ item :: after) ++ rest) p := by
    intro other
    rcases @begins_place d before after item rest with zero | stop
    · omega
    · have letter := @OccursAt.getElem? _ _ _ p (place d before - 1 - p) other (by omega)
      rw [show p + (place d before - 1 - p) = place d before - 1 by omega, stop] at letter
      exact level.noStop (List.mem_of_getElem? letter.symm)
  obtain ⟨h, member, at_place⟩ := @exists_hit _ _ _ _
    ((joined d (before ++ item :: after) ++ rest).length + 1) 0 _ (by omega) (Nat.zero_le _)
    level.nonempty occurs free
  exact ⟨h, (mem_visited_iff level.nonempty).mpr ⟨member, at_place ▸ inside⟩, at_place⟩

lemma Level.exists_named (level : Level d items rest opt) {h : Hit}
    (member : h ∈ visited (joined d items ++ rest) (joined d items).length opt)
    (begins : Begins (joined d items ++ rest) d h.place)
    (ends : Ends (joined d items ++ rest) d (h.place + opt.length)) :
    ∃ before item after, items = before ++ item :: after ∧ item.name = opt ∧
      place d before = h.place := by
  obtain ⟨found, inside⟩ := (mem_visited_iff level.nonempty).mp member
  have pos := List.length_pos_iff.mpr level.nonempty
  have begins_inside : Begins (joined d items) d h.place := by
    refine begins.imp_right fun stop => ?_
    rwa [List.getElem?_append_left (by omega)] at stop
  obtain ⟨before, item, after, rfl, at_place⟩ :=
    exists_item level.clean (by omega) begins_inside
  refine ⟨before, item, after, rfl, level.name_eq ?_ ?_ ?_, at_place⟩
  · rw [at_place]
    exact (hits_occurs found).2.1
  · rw [at_place]
    exact inside
  · rw [at_place]
    exact ends

lemma split_unique (distinct : (items.map Item.name).Nodup) {before' after' : List Item}
    {item' : Item} (split : items = before ++ item :: after)
    (split' : items = before' ++ item' :: after') (same : item.name = item'.name) :
    before = before' ∧ item = item' ∧ after = after' := by
  have here : (items.map Item.name)[before.length]? = some item.name := by
    rw [split, List.map_append, List.getElem?_append_right (le_of_eq (List.length_map _)),
      List.length_map, Nat.sub_self]
    rfl
  have there : (items.map Item.name)[before'.length]? = some item'.name := by
    rw [split', List.map_append, List.getElem?_append_right (le_of_eq (List.length_map _)),
      List.length_map, Nat.sub_self]
    rfl
  have inside : before.length < (items.map Item.name).length :=
    (List.getElem?_eq_some_iff.mp here).1
  have length : before.length = before'.length :=
    (List.getElem?_inj inside distinct).mp (by rw [here, there, same])
  obtain ⟨front, back⟩ := List.append_inj (split.symm.trans split') length
  obtain ⟨rfl, rfl⟩ := List.cons.inj back
  exact ⟨front, rfl, rfl⟩

end

/-! ## One list -/

def searchIn (d : Delimiters) (items : List Item) (rest opt : Text) : Option Nat :=
  search (joined d items ++ rest) (joined d items).length opt d
    ((joined d items ++ rest).length + 1) 0

section
variable {d : Delimiters} {items : List Item} {rest opt : Text}

lemma parse_isSome :
    (parseIn d items rest opt false).isSome ↔ searchIn d items rest opt ≠ none := by
  rw [parseIn, hwconfigParse, ← searchIn]
  cases searchIn d items rest opt with
  | none => exact iff_of_false Bool.false_ne_true (not_not.mpr rfl)
  | some str => exact iff_of_true rfl (Option.some_ne_none str)

lemma parse_none (nothing : searchIn d items rest opt = none) (arglen : Bool) :
    parseIn d items rest opt arglen = none := by
  rw [parseIn, hwconfigParse, ← searchIn, nothing]

lemma parse_some (found : searchIn d items rest opt = some str) :
    parseIn d items rest opt true =
      if (joined d items ++ rest)[str + opt.length]? ≠ some d.eqch then none
      else match ((joined d items ++ rest).drop str).findIdx? (· = d.stopch) with
        | none => some (str + opt.length + 1,
            min (joined d items).length ((joined d items ++ rest).drop str).length -
              opt.length - 1)
        | some argEnd => some (str + opt.length + 1, argEnd - opt.length - 1) := by
  rw [parseIn, hwconfigParse, ← searchIn, found]
  rfl

lemma parse_eq_none_iff (found : searchIn d items rest opt = some str) :
    parseIn d items rest opt true = none ↔
      (joined d items ++ rest)[str + opt.length]? ≠ some d.eqch := by
  rw [parse_some found]
  by_cases eq : (joined d items ++ rest)[str + opt.length]? = some d.eqch
  · rw [if_neg (not_not.mpr eq)]
    refine iff_of_false ?_ (not_not.mpr eq)
    cases ((joined d items ++ rest).drop str).findIdx? (· = d.stopch) with
    | none => exact Option.some_ne_none _
    | some argEnd => exact Option.some_ne_none _
  · rw [if_pos eq]
    exact iff_of_true rfl eq

lemma parse_place {q length : Nat} (found : searchIn d items rest opt = some str)
    (returned : parseIn d items rest opt true = some (q + opt.length + 1, length)) : str = q := by
  rw [parse_some found] at returned
  split at returned
  · cases returned
  split at returned
  · have := congrArg Prod.fst (Option.some.inj returned)
    omega
  · have := congrArg Prod.fst (Option.some.inj returned)
    omega

end

section
variable {d : Delimiters} {items before after : List Item} {item : Item} {rest opt : Text}

lemma Level.reported_absent (level : Level d items rest opt)
    (absent : ∀ item ∈ items, item.name ≠ opt) :
    Reported d items rest opt ↔
      stuttersIn d items rest opt = [] := by
  have none_named : ¬ ∃ item ∈ items, item.name = opt :=
    fun ⟨item, member, named⟩ => absent item member named
  have nothing : searchIn d items rest opt = none ↔
        stuttersIn d items rest opt = [] := by
    rw [searchIn, search_eq_none_iff, @List.eq_nil_iff_forall_not_mem _ (stuttersIn _ _ _ _)]
    constructor
    · intro none_taken p stutter
      obtain ⟨h, member, rfl, -⟩ := mem_stutters_iff.mp stutter
      exact none_taken h member ((taken_iff level.nonempty member).mpr (.inl stutter))
    · intro none_stutters h member taken
      rcases (taken_iff level.nonempty member).mp taken with stutter | ⟨begins, ends⟩
      · exact none_stutters _ stutter
      · obtain ⟨before, item, after, rfl, named, -⟩ := level.exists_named member begins ends
        exact absent item (by simp) named
  rw [← nothing]
  constructor
  · intro reported
    by_contra found
    exact none_named (reported.present.mp (parse_isSome.mpr found))
  · intro none_found
    refine ⟨?_, fun before item after value split named => ?_, fun _ => parse_none none_found _⟩
    · rw [parse_isSome]
      exact iff_of_false (not_not.mpr none_found) none_named
    · exact absurd named (absent item (by rw [split]; simp))

end

section
variable {d : Delimiters} {before after : List Item} {item : Item} {rest opt : Text}

lemma stutters_ordered {text : Text} {maxlen : Nat} (nonempty : opt ≠ []) :
    (stutters text maxlen opt d).Pairwise (· < ·) := by
  rw [stutters, List.pairwise_map]
  exact (visited_ordered nonempty).filter _

lemma head?_iff {l : List Nat} (ordered : l.Pairwise (· < ·)) {s : Nat} :
    l.head? = some s ↔ s ∈ l ∧ ∀ s' ∈ l, s ≤ s' := by
  cases l with
  | nil => exact iff_of_false (by simp) fun ⟨member, _⟩ => List.not_mem_nil member
  | cons a l =>
    obtain ⟨behind, -⟩ := List.pairwise_cons.mp ordered
    rw [List.head?_cons]
    constructor
    · intro same
      cases same
      refine ⟨List.mem_cons_self, fun s' member => ?_⟩
      rcases List.mem_cons.mp member with rfl | later
      · exact le_rfl
      · exact le_of_lt (behind s' later)
    · rintro ⟨member, least⟩
      rcases List.mem_cons.mp member with rfl | later
      · rfl
      · have := behind s later
        have := least a List.mem_cons_self
        omega

lemma Level.stutter_ne (s : Nat)
    (stutter : s ∈ stuttersIn d (before ++ item :: after) rest opt) : s ≠ place d before := by
  rintro rfl
  obtain ⟨h, -, -, -, inner, -⟩ := mem_stutters_iff.mp stutter
  exact inner (begins_place rest)

lemma Level.taken_split (level : Level d (before ++ item :: after) rest opt)
    (named : item.name = opt) {h : Hit}
    (member : h ∈ visited (joined d (before ++ item :: after) ++ rest)
      (joined d (before ++ item :: after)).length opt) :
    Taken (joined d (before ++ item :: after) ++ rest) opt d h ↔
      h.place ∈ stuttersIn d (before ++ item :: after) rest opt ∨
      h.place = place d before ∧ (item.value.isSome ∨ after ≠ [] ∨ rest = []) := by
  rw [taken_iff level.nonempty member]
  refine or_congr_right ⟨?_, ?_⟩
  · rintro ⟨begins, ends⟩
    obtain ⟨before', item', after', split, named', at_place⟩ :=
      level.exists_named member begins ends
    obtain ⟨rfl, -, -⟩ := split_unique level.distinct rfl split (named.trans named'.symm)
    rw [← at_place] at ends ⊢
    exact ⟨rfl, (level.ends_iff named).mp ends⟩
  · rintro ⟨at_place, closed⟩
    rw [at_place]
    exact ⟨begins_place rest, (level.ends_iff named).mpr closed⟩

lemma Level.search_split_none (level : Level d (before ++ item :: after) rest opt)
    (named : item.name = opt) :
    searchIn d (before ++ item :: after) rest opt = none ↔
      ¬ (item.value.isSome ∨ after ≠ [] ∨ rest = []) ∧
        stuttersIn d (before ++ item :: after) rest opt = [] := by
  rw [searchIn, search_eq_none_iff, @List.eq_nil_iff_forall_not_mem _ (stuttersIn _ _ _ _)]
  constructor
  · intro nothing
    refine ⟨fun closed => ?_, fun s stutter => ?_⟩
    · obtain ⟨h, member, at_place⟩ := level.exists_visited named
      exact nothing h member ((level.taken_split named member).mpr (.inr ⟨at_place, closed⟩))
    · obtain ⟨h, member, rfl, -⟩ := mem_stutters_iff.mp stutter
      exact nothing h member ((level.taken_split named member).mpr (.inl stutter))
  · rintro ⟨opened, none_stutters⟩ h member taken
    rcases (level.taken_split named member).mp taken with stutter | ⟨-, closed⟩
    · exact none_stutters _ stutter
    · exact opened closed

lemma Level.search_split_some (level : Level d (before ++ item :: after) rest opt)
    (named : item.name = opt) :
    searchIn d (before ++ item :: after) rest opt = some str ↔
      (str ∈ stuttersIn d (before ++ item :: after) rest opt ∨
        str = place d before ∧ (item.value.isSome ∨ after ≠ [] ∨ rest = [])) ∧
      (∀ s ∈ stuttersIn d (before ++ item :: after) rest opt, str ≤ s) ∧
      (item.value.isSome ∨ after ≠ [] ∨ rest = [] → str ≤ place d before) := by
  rw [searchIn, search_eq_some_iff level.nonempty]
  constructor
  · rintro ⟨⟨h, member, taken, rfl⟩, least⟩
    refine ⟨(level.taken_split named member).mp taken, fun s stutter => ?_, fun closed => ?_⟩
    · obtain ⟨h', member', rfl, -⟩ := mem_stutters_iff.mp stutter
      exact least h' member' ((level.taken_split named member').mpr (.inl stutter))
    · obtain ⟨h', member', at_place⟩ := level.exists_visited named
      rw [← at_place]
      exact least h' member' ((level.taken_split named member').mpr (.inr ⟨at_place, closed⟩))
  · rintro ⟨taken, least, first⟩
    refine ⟨?_, fun h member taken' => ?_⟩
    · rcases taken with stutter | ⟨rfl, closed⟩
      · obtain ⟨h, member, rfl, -⟩ := mem_stutters_iff.mp stutter
        exact ⟨h, member, (level.taken_split named member).mpr (.inl stutter), rfl⟩
      · obtain ⟨h, member, at_place⟩ := level.exists_visited named
        exact ⟨h, member, (level.taken_split named member).mpr (.inr ⟨at_place, closed⟩), at_place⟩
    · rcases (level.taken_split named member).mp taken' with stutter | ⟨at_place, closed⟩
      · exact least _ stutter
      · rw [at_place]
        exact first closed

end

section
variable {d : Delimiters} {before after : List Item} {item : Item} {rest opt : Text}

lemma stutters_head? (nonempty : opt ≠ []) {items : List Item} {s : Nat} :
    (stuttersIn d items rest opt).head? = some s ↔
      s ∈ stuttersIn d items rest opt ∧ ∀ s' ∈ stuttersIn d items rest opt, s ≤ s' :=
  head?_iff (stutters_ordered nonempty)

lemma Level.stutter_before (level : Level d (before ++ item :: after) rest opt)
    (named : item.name = opt) (no_value : item.value = none) (last : after = []) {s : Nat}
    (stutter : s ∈ stuttersIn d (before ++ item :: after) rest opt) : s < place d before := by
  have other := Level.stutter_ne s stutter
  obtain ⟨h, member, rfl, -⟩ := mem_stutters_iff.mp stutter
  have inside := ((mem_visited_iff level.nonempty).mp member).2
  rw [length_joined, Item.text, no_value, last, named] at inside
  simp only [List.append_nil, List.flatMap_nil, List.length_nil] at inside
  omega

lemma Level.reported_noValue (level : Level d (before ++ item :: after) rest opt)
    (named : item.name = opt) (no_value : item.value = none) :
    Reported d (before ++ item :: after) rest opt ↔
      (after ≠ [] ∨ rest = [] ∨ stuttersIn d (before ++ item :: after) rest opt ≠ []) ∧
      ∀ s, (stuttersIn d (before ++ item :: after) rest opt).head? = some s →
        s < place d before →
          (joined d (before ++ item :: after) ++ rest)[s + opt.length]? ≠ some d.eqch := by
  have closed_iff : (item.value.isSome ∨ after ≠ [] ∨ rest = []) ↔ after ≠ [] ∨ rest = [] := by
    rw [no_value]
    exact or_iff_right Bool.false_ne_true
  have here : ∃ item' ∈ before ++ item :: after, item'.name = opt := ⟨item, by simp, named⟩
  have only (item' : Item) (member : item' ∈ before ++ item :: after) (named' : item'.name = opt) :
      item'.value = none := by
    obtain ⟨before', after', split⟩ := List.append_of_mem member
    obtain ⟨-, rfl, -⟩ := split_unique level.distinct rfl split (named.trans named'.symm)
    exact no_value
  have nothing := level.search_split_none named
  rw [closed_iff] at nothing
  constructor
  · intro reported
    have found := parse_isSome.mp (reported.present.mpr here)
    refine ⟨?_, fun s first less => ?_⟩
    · by_contra none_taken
      rw [not_or, not_or, not_not] at none_taken
      exact found (nothing.mpr ⟨fun closed => closed.elim (absurd none_taken.1) none_taken.2.1,
        not_not.mp none_taken.2.2⟩)
    · obtain ⟨member, least⟩ := (stutters_head? level.nonempty).mp first
      have str : searchIn d (before ++ item :: after) rest opt = some s :=
        (level.search_split_some named).mpr ⟨.inl member, least, fun _ => le_of_lt less⟩
      exact (parse_eq_none_iff str).mp (reported.noValue only)
  · rintro ⟨some_taken, first⟩
    have found : searchIn d (before ++ item :: after) rest opt ≠ none := by
      rw [Ne, nothing]
      rintro ⟨opened, none_stutters⟩
      rcases some_taken with more | empty | stutters
      · exact opened (.inl more)
      · exact opened (.inr empty)
      · exact stutters none_stutters
    refine ⟨iff_of_true (parse_isSome.mpr found) here,
      fun before' item' after' value split' named' some_value => ?_, fun _ => ?_⟩
    · have none_there := only item' (by rw [split']; simp) named'
      rw [none_there] at some_value
      cases some_value
    · obtain ⟨str, found⟩ := Option.ne_none_iff_exists'.mp found
      rw [parse_eq_none_iff found]
      obtain ⟨taken, least, upto⟩ := (level.search_split_some named).mp found
      rw [closed_iff] at taken upto
      rcases taken with stutter | ⟨rfl, closed⟩
      · refine first str ((stutters_head? level.nonempty).mpr ⟨stutter, least⟩) ?_
        have other := Level.stutter_ne str stutter
        by_cases last : after = []
        · exact level.stutter_before named no_value last stutter
        · have := upto (.inl last)
          omega
      · have not_some : ¬ item.value.isSome := no_value ▸ Bool.false_ne_true
        rw [← named, getElem?_behind_name, if_neg not_some]
        by_cases more : after ≠ []
        · rw [if_pos more]
          exact fun same => level.apart (Option.some.inj same)
        · rw [if_neg more, closed.resolve_left more]
          exact (Option.some_ne_none _).symm

lemma Level.findIdx?_stop (level : Level d (before ++ item :: after) rest opt)
    (named : item.name = opt) {value : Text} (some_value : item.value = some value) :
    ((joined d (before ++ item :: after) ++ rest).drop (place d before)).findIdx?
        (· = d.stopch) =
      if after ≠ [] then some (opt.length + 1 + value.length)
      else (rest.findIdx? (· = d.stopch)).map (· + (opt.length + 1 + value.length)) := by
  have member : item ∈ before ++ item :: after := List.mem_append_right _ List.mem_cons_self
  have clean := level.stop_not_mem_text member
  have length : (item.text d).length = opt.length + 1 + value.length := by
    rw [Item.text, some_value, List.length_append, List.length_cons, named]
    omega
  have nothing : (item.text d).findIdx? (· = d.stopch) = none := by
    rw [List.findIdx?_eq_none_iff]
    exact fun c member => decide_eq_false fun same => clean (same ▸ member)
  rw [drop_place, List.findIdx?_append, nothing, Option.none_or, length]
  cases after with
  | nil => rfl
  | cons next after =>
    rw [if_pos (List.cons_ne_nil _ _), List.flatMap_cons, List.cons_append, List.cons_append,
      List.findIdx?_cons, if_pos (decide_eq_true rfl), Option.map_some, Nat.zero_add]

end

section
variable {d : Delimiters} {items before after : List Item} {item : Item} {rest opt : Text}

lemma place_eq_zero_iff : place d before = 0 ↔ before = [] := by
  rw [place, List.length_eq_zero_iff, List.flatMap_eq_nil_iff]
  cases before with
  | nil => exact iff_of_true (by simp) rfl
  | cons first before =>
    refine iff_of_false (fun none_there => ?_) (List.cons_ne_nil _ _)
    exact absurd (none_there first List.mem_cons_self) (by simp)

lemma Level.parse_value_iff (level : Level d (before ++ item :: after) rest opt)
    (named : item.name = opt) {value : Text} (some_value : item.value = some value)
    (found : searchIn d (before ++ item :: after) rest opt = some (place d before)) :
    parseIn d (before ++ item :: after) rest opt true =
        some (place d before + opt.length + 1, value.length) ↔
      (after = [] → rest = [] ∨ before = [] ∧ d.stopch ∉ rest) := by
  have is_some : item.value.isSome := some_value ▸ rfl
  have eq : (joined d (before ++ item :: after) ++ rest)[place d before + opt.length]? =
      some d.eqch := by
    rw [← named, getElem?_behind_name, if_pos is_some]
  have dropped : ((joined d (before ++ item :: after) ++ rest).drop (place d before)).length =
      opt.length + 1 + value.length +
        (after.flatMap fun item => d.stopch :: item.text d).length + rest.length := by
    rw [drop_place, List.length_append, List.length_append, Item.text, some_value,
      List.length_append, List.length_cons, named]
    omega
  have inner := @length_joined d before after item
  rw [Item.text, some_value, List.length_append, List.length_cons, named] at inner
  rw [parse_some found, if_neg (not_not.mpr eq), level.findIdx?_stop named some_value]
  by_cases more : after ≠ []
  · rw [if_pos more]
    refine iff_of_true (congrArg some (Prod.ext rfl ?_)) fun last => absurd last more
    omega
  rw [not_not] at more
  rw [if_neg (not_not.mpr more)]
  rw [more, List.flatMap_nil, List.length_nil] at dropped inner
  cases stop : rest.findIdx? (· = d.stopch) with
  | none =>
    have clean : d.stopch ∉ rest := by
      intro member
      have := List.findIdx?_eq_none_iff.mp stop _ member
      exact absurd rfl (of_decide_eq_false this)
    rw [Option.map_none]
    rw [more, dropped, inner, Option.some_inj, Prod.mk.injEq, ← @place_eq_zero_iff d before,
      ← @List.length_eq_zero_iff _ rest]
    constructor
    · rintro ⟨-, length⟩ -
      by_cases empty : rest.length = 0
      · exact .inl empty
      · exact .inr ⟨by omega, clean⟩
    · intro ends
      refine ⟨rfl, ?_⟩
      rcases ends rfl with empty | ⟨first, -⟩
      · omega
      · omega
  | some k =>
    have member : d.stopch ∈ rest := by
      obtain ⟨inside, there, -⟩ := List.findIdx?_eq_some_iff_getElem.mp stop
      exact of_decide_eq_true there ▸ List.getElem_mem inside
    have later : k ≠ 0 := by
      rintro rfl
      obtain ⟨inside, there, -⟩ := List.findIdx?_eq_some_iff_getElem.mp stop
      have head : rest.head? = some rest[0] := by
        rw [List.head?_eq_getElem?, List.getElem?_eq_getElem inside]
      exact (level.behind _ head).1 (of_decide_eq_true there)
    rw [Option.map_some]
    rw [Option.some_inj, Prod.mk.injEq]
    refine iff_of_false (fun ⟨_, length⟩ => by omega) fun ends => ?_
    rcases ends more with empty | ⟨-, clean⟩
    · rw [empty] at member
      exact absurd member List.not_mem_nil
    · exact clean member

lemma Level.reported_value (level : Level d (before ++ item :: after) rest opt)
    (named : item.name = opt) {value : Text} (some_value : item.value = some value) :
    Reported d (before ++ item :: after) rest opt ↔
      (∀ s ∈ stuttersIn d (before ++ item :: after) rest opt, place d before < s) ∧
        (after = [] → rest = [] ∨ before = [] ∧ d.stopch ∉ rest) := by
  have closed : item.value.isSome ∨ after ≠ [] ∨ rest = [] := .inl (some_value ▸ rfl)
  have here : ∃ item' ∈ before ++ item :: after, item'.name = opt := ⟨item, by simp, named⟩
  have found : searchIn d (before ++ item :: after) rest opt ≠ none := by
    rw [Ne, level.search_split_none named]
    exact fun nothing => nothing.1 closed
  obtain ⟨str, found⟩ := Option.ne_none_iff_exists'.mp found
  obtain ⟨taken, least, upto⟩ := (level.search_split_some named).mp found
  have first_iff : str = place d before ↔
      ∀ s ∈ stuttersIn d (before ++ item :: after) rest opt, place d before < s := by
    constructor
    · rintro rfl s stutter
      exact Nat.lt_of_le_of_ne (least s stutter) (Level.stutter_ne s stutter).symm
    · intro behind
      rcases taken with stutter | ⟨same, -⟩
      · exact absurd (behind str stutter) (not_lt.mpr (upto closed))
      · exact same
  rw [← first_iff]
  constructor
  · intro reported
    have returned := reported.value before item after value rfl named some_value
    obtain rfl := parse_place found returned
    exact ⟨rfl, (level.parse_value_iff named some_value found).mp returned⟩
  · rintro ⟨rfl, ends⟩
    refine ⟨iff_of_true (parse_isSome.mpr (by rw [found]; exact Option.some_ne_none _)) here,
      fun before' item' after' value' split' named' some_value' => ?_, fun none_valued => ?_⟩
    · obtain ⟨rfl, rfl, rfl⟩ := split_unique level.distinct rfl split' (named.trans named'.symm)
      obtain rfl := Option.some.inj (some_value'.symm.trans some_value)
      exact (level.parse_value_iff named some_value found).mpr ends
    · have none_there := none_valued item (by simp) named
      rw [none_there] at some_value
      cases some_value

lemma Level.reported_iff (level : Level d items rest opt) :
    Reported d items rest opt ↔ Unambiguous d items rest opt := by
  by_cases present : ∃ item ∈ items, item.name = opt
  · obtain ⟨item, member, named⟩ := present
    obtain ⟨before, after, rfl⟩ := List.append_of_mem member
    have there : ¬ ∀ item' ∈ before ++ item :: after, item'.name ≠ opt :=
      fun absent => absent item member named
    cases value : item.value with
    | none =>
      rw [level.reported_noValue named value]
      constructor
      · intro right
        refine ⟨fun absent => absurd absent there, fun before' item' after' split named' _ => ?_,
          fun before' item' after' v split named' some_value => ?_⟩
        · obtain ⟨rfl, rfl, rfl⟩ := split_unique level.distinct rfl split (named.trans named'.symm)
          exact right
        · obtain ⟨rfl, rfl, rfl⟩ := split_unique level.distinct rfl split (named.trans named'.symm)
          rw [value] at some_value
          cases some_value
      · exact fun unambiguous => unambiguous.noValue before item after rfl named value
    | some v =>
      rw [level.reported_value named value]
      constructor
      · intro right
        refine ⟨fun absent => absurd absent there,
          fun before' item' after' split named' no_value => ?_,
          fun before' item' after' v split named' _ => ?_⟩
        · obtain ⟨rfl, rfl, rfl⟩ := split_unique level.distinct rfl split (named.trans named'.symm)
          rw [value] at no_value
          cases no_value
        · obtain ⟨rfl, rfl, rfl⟩ := split_unique level.distinct rfl split (named.trans named'.symm)
          exact right
      · exact fun unambiguous => unambiguous.value before item after v rfl named value
  · have absent : ∀ item ∈ items, item.name ≠ opt :=
      fun item member named => present ⟨item, member, named⟩
    rw [level.reported_absent absent]
    constructor
    · intro none_stutters
      exact ⟨fun _ => none_stutters,
        fun before item after split named => absurd named (absent item (by rw [split]; simp)),
        fun before item after v split named => absurd named (absent item (by rw [split]; simp))⟩
    · exact fun unambiguous => unambiguous.absent absent

end

end HwConfig
