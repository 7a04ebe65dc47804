import UBoot.Env.PlainVariable
import UBoot.Mtd.PartLists

/-!
# The current partition through additions and deletions

The current partition is kept as an index. `part_sort_add` and `part_del` shift it by
comparing offsets, which tells the places of two partitions apart only where their offsets
differ; an index of eight bits also comes to its end.
-/

namespace PartLists

open EnvArea Mtdparts NumberText PlainVariable Runs EnvMap

/-! ## Insertion -/

lemma partSortAdd_split {α : Type} {offset : α → UInt32} {new : α} {parts added : List α}
    (h : Mtdparts.partSortAdd offset new parts = .ok added) :
    ∃ pre post, parts = pre ++ post ∧ added = pre ++ new :: post ∧
      (∀ q ∈ pre, offset q < offset new) ∧
      (∀ q, post.head? = some q → offset new ≤ offset q) := by
  induction parts generalizing added with
  | nil =>
    obtain rfl := Except.ok.inj h
    exact ⟨[], [], rfl, rfl, by simp, by simp⟩
  | cons pi rest ih =>
    rw [Mtdparts.partSortAdd] at h
    split_ifs at h with hzero hle
    · obtain rfl := Except.ok.inj h
      refine ⟨[], pi :: rest, rfl, rfl, by simp, ?_⟩
      intro q hq
      cases hq
      exact hle
    cases hrest : Mtdparts.partSortAdd offset new rest with
    | error e => simp [hrest] at h
    | ok mid =>
      rw [hrest] at h
      obtain rfl := Except.ok.inj h
      obtain ⟨pre, post, rfl, rfl, hpre, hpost⟩ := ih hrest
      refine ⟨pi :: pre, post, rfl, rfl, ?_, hpost⟩
      intro q hq
      rcases List.mem_cons.mp hq with rfl | hmem
      · exact UInt32.not_le.mp hle
      · exact hpre q hmem

lemma sorted_insert {α : Type} {offset : α → UInt32} {new : α} {pre post : List α}
    (sorted : (pre ++ post).Pairwise (fun a b => offset a ≤ offset b))
    (before : ∀ q ∈ pre, offset q < offset new)
    (behind : ∀ q, post.head? = some q → offset new ≤ offset q) :
    (pre ++ new :: post).Pairwise (fun a b => offset a ≤ offset b) := by
  obtain ⟨hpre, hpost, hcross⟩ := List.pairwise_append.mp sorted
  have hbehind : ∀ q ∈ post, offset new ≤ offset q := by
    cases post with
    | nil => simp
    | cons first rest =>
      intro q hq
      have hfirst := behind first rfl
      rcases List.mem_cons.mp hq with rfl | hmem
      · exact hfirst
      · exact UInt32.le_trans hfirst ((List.pairwise_cons.mp hpost).1 q hmem)
  refine List.pairwise_append.mpr ⟨hpre, List.pairwise_cons.mpr ⟨hbehind, hpost⟩, ?_⟩
  intro a ha b hb
  rcases List.mem_cons.mp hb with rfl | hmem
  · exact UInt32.le_of_lt (before a ha)
  · exact hcross a ha b hmem

lemma find_behind {α : Type} {offset : α → UInt32} {new : α} {pre post : List α}
    (before : ∀ q ∈ pre, offset q < offset new)
    (behind : ∀ q, post.head? = some q → offset new ≤ offset q) :
    (pre ++ post).find? (fun q => offset new ≤ offset q) = post.head? := by
  have hpre : pre.find? (fun q => decide (offset new ≤ offset q)) = none := by
    rw [List.find?_eq_none]
    intro q hq
    simpa using before q hq
  rw [List.find?_append, hpre, Option.none_or]
  cases post with
  | nil => rfl
  | cons first rest => simp [behind first rfl]

/-! ## One device on the list -/

variable {parts : List PartInfo} {dev : MtdDevice} {l : Lists} {key : DevType × UInt8} {next : Nat}

/-- What holds of the lists between the calls; `next` bounds the addresses. -/
structure Inv (l : Lists) (next : Nat) : Prop where
  keys : (l.devices.map MtdDevice.key).Nodup
  sorted : ∀ dev ∈ l.devices, dev.parts.Pairwise (fun a b => a.offset ≤ b.offset)
  count : ∀ dev ∈ l.devices, dev.numParts.toNat = dev.parts.length
  nonempty : ∀ dev ∈ l.devices, dev.parts ≠ []
  distinct : (l.devices.flatMap (fun dev => dev.parts.map PartInfo.self)).Nodup
  known : ∀ dev ∈ l.devices, ∀ p ∈ dev.parts, p.self < next
  current : ∀ key, l.currentDev = some key →
    ∃ dev, l.find key = some dev ∧ l.currentPartnum.toNat < dev.parts.length

def Lists.current (l : Lists) : Option PartInfo :=
  match l.currentDev with
  | none => none
  | some key => match l.find key with
    | none => none
    | some dev => dev.parts[l.currentPartnum.toNat]?

lemma find_split (keys : (l.devices.map MtdDevice.key).Nodup) (h : l.find key = some dev) :
    ∃ pre post, l.devices = pre ++ dev :: post ∧ dev.key = key ∧
      (∀ d ∈ pre, d.key ≠ key) ∧ ∀ d ∈ post, d.key ≠ key := by
  obtain ⟨hkey, pre, post, hsplit, hpre⟩ := List.find?_eq_some_iff_append.mp h
  have hkey : dev.key = key := by simpa using hkey
  refine ⟨pre, post, hsplit, hkey, fun d hd => by simpa using hpre d hd, ?_⟩
  rw [hsplit, List.map_append, List.map_cons] at keys
  have hnot := (List.nodup_cons.mp (List.nodup_append.mp keys).2.1).1
  intro d hd heq
  apply hnot
  rw [hkey, ← heq]
  exact List.mem_map_of_mem hd

def MtdDevice.withParts (dev : MtdDevice) (numParts : UInt16) (parts : List PartInfo) : MtdDevice :=
  { dev with numParts := numParts, parts := parts }

@[simp] theorem withParts_key (dev : MtdDevice) (numParts : UInt16) (parts : List PartInfo) :
    (dev.withParts numParts parts).key = dev.key := rfl

lemma setParts_split {pre post : List MtdDevice} (split : l.devices = pre ++ dev :: post)
    (hkey : dev.key = key) (hpre : ∀ d ∈ pre, d.key ≠ key) (hpost : ∀ d ∈ post, d.key ≠ key)
    (numParts : UInt16) (parts : List PartInfo) :
    (l.setParts key numParts parts).devices =
      pre ++ dev.withParts numParts parts :: post := by
  have hid : ∀ ds : List MtdDevice, (∀ d ∈ ds, d.key ≠ key) → ds.map (fun d =>
      if d.key = key then d.withParts numParts parts else d) = ds := by
    intro ds hds
    conv_rhs => rw [← List.map_id ds]
    apply List.map_congr_left
    intro d hd
    rw [if_neg (hds d hd)]
    rfl
  change l.devices.map (fun d => if d.key = key then d.withParts numParts parts else d) = _
  rw [split, List.map_append, List.map_cons, hid pre hpre, hid post hpost, if_pos hkey]

lemma find_of_split {ds pre post : List MtdDevice} (split : ds = pre ++ dev :: post)
    (hkey : dev.key = key) (hpre : ∀ d ∈ pre, d.key ≠ key) :
    ds.find? (fun d => d.key = key) = some dev := by
  subst split
  exact List.find?_eq_some_iff_append.mpr ⟨by simpa using hkey, pre, post, rfl,
    fun d hd => by simpa using hpre d hd⟩

lemma find_setParts (keys : (l.devices.map MtdDevice.key).Nodup) (h : l.find key = some dev)
    (numParts : UInt16) (parts : List PartInfo) (other : DevType × UInt8) :
    (l.setParts key numParts parts).find other =
      if other = key then some (dev.withParts numParts parts) else l.find other := by
  obtain ⟨pre, post, hsplit, hkey, hpre, hpost⟩ := find_split keys h
  have hdevices := setParts_split hsplit hkey hpre hpost numParts parts
  by_cases hother : other = key
  · subst hother
    rw [if_pos rfl]
    exact find_of_split hdevices hkey hpre
  · rw [if_neg hother]
    have hne : ¬ dev.key = other := fun heq => hother (heq.symm.trans hkey)
    simp only [Lists.find, hdevices, hsplit, List.find?_append, List.find?_cons, withParts_key]
    simp [hne]

/-- What other partitions of a device have to be for the lists to stay in order. -/
structure Fine (dev : MtdDevice) (next next' : Nat) (numParts : UInt16) (parts : List PartInfo) :
    Prop where
  sorted : parts.Pairwise (fun a b => a.offset ≤ b.offset)
  count : numParts.toNat = parts.length
  nonempty : parts ≠ []
  distinct : (parts.map PartInfo.self).Nodup
  known : ∀ p ∈ parts, p ∈ dev.parts ∨ p.self = next
  bound : ∀ p ∈ parts, p.self < next'
  le : next ≤ next'

lemma inv_setParts {l' : Lists} {next' : Nat} (inv : Inv l next) (h : l.find key = some dev)
    {numParts : UInt16} (fine : Fine dev next next' numParts parts)
    (devices : l'.devices = (l.setParts key numParts parts).devices)
    (same : l'.currentDev = l.currentDev)
    (here : l.currentDev = some key → l'.currentPartnum.toNat < parts.length)
    (there : l.currentDev ≠ some key → l'.currentPartnum = l.currentPartnum) :
    Inv l' next' := by
  obtain ⟨pre, post, hsplit, hkey, hpre, hpost⟩ := find_split inv.keys h
  have hdevices := devices.trans (setParts_split hsplit hkey hpre hpost numParts parts)
  have hfind : ∀ other, l'.find other =
      if other = key then some (dev.withParts numParts parts) else l.find other := by
    intro other
    rw [← find_setParts inv.keys h numParts parts other, Lists.find, Lists.find, devices]
  have hmem : ∀ d ∈ l'.devices, d = dev.withParts numParts parts ∨ d ∈ l.devices := by
    intro d hd
    rw [hdevices] at hd
    rw [hsplit]
    rcases List.mem_append.mp hd with hmem | hmem
    · exact .inr (List.mem_append_left _ hmem)
    · rcases List.mem_cons.mp hmem with rfl | hmem
      · exact .inl rfl
      · exact .inr (List.mem_append_right _ (List.mem_cons_of_mem _ hmem))
  constructor
  case keys =>
    have hkeys := inv.keys
    rw [hsplit] at hkeys
    rw [hdevices]
    simpa using hkeys
  case sorted =>
    intro d hd
    rcases hmem d hd with rfl | hmem
    · exact fine.sorted
    · exact inv.sorted d hmem
  case count =>
    intro d hd
    rcases hmem d hd with rfl | hmem
    · exact fine.count
    · exact inv.count d hmem
  case nonempty =>
    intro d hd
    rcases hmem d hd with rfl | hmem
    · exact fine.nonempty
    · exact inv.nonempty d hmem
  case distinct =>
    have hdistinct := inv.distinct
    have hknown := inv.known
    rw [hsplit] at hdistinct hknown
    rw [hdevices]
    simp only [List.flatMap_append, List.flatMap_cons, List.nodup_append] at hdistinct ⊢
    obtain ⟨hpreNodup, ⟨-, hpostNodup, hdevPost⟩, hpreDev⟩ := hdistinct
    -- an address of the new list is one of the old list, or larger than all others
    have hself : ∀ p ∈ parts, p.self ∈ dev.parts.map PartInfo.self ∨ p.self = next := by
      intro p hp
      rcases fine.known p hp with hold | hnew
      · exact .inl (List.mem_map_of_mem hold)
      · exact .inr hnew
    refine ⟨hpreNodup, ⟨fine.distinct, hpostNodup, ?_⟩, ?_⟩
    · intro a ha b hb
      obtain ⟨p, hp, rfl⟩ := List.mem_map.mp ha
      rcases hself p hp with hold | hnew
      · exact hdevPost _ hold b hb
      obtain ⟨d, hd, hbd⟩ := List.mem_flatMap.mp hb
      obtain ⟨q, hq, rfl⟩ := List.mem_map.mp hbd
      have hlt := hknown d (by simp [hd]) q hq
      omega
    · intro a ha b hb
      rcases List.mem_append.mp hb with hb | hb
      · obtain ⟨p, hp, rfl⟩ := List.mem_map.mp hb
        rcases hself p hp with hold | hnew
        · exact hpreDev a ha _ (List.mem_append_left _ hold)
        obtain ⟨d, hd, had⟩ := List.mem_flatMap.mp ha
        obtain ⟨q, hq, rfl⟩ := List.mem_map.mp had
        have hlt := hknown d (by simp [hd]) q hq
        omega
      · exact hpreDev a ha b (List.mem_append_right _ hb)
  case known =>
    intro d hd p hp
    rcases hmem d hd with rfl | hmem
    · exact fine.bound p hp
    · exact lt_of_lt_of_le (inv.known d hmem p hp) fine.le
  case current =>
    intro other hother
    rw [same] at hother
    rw [hfind]
    by_cases hsame : other = key
    · subst hsame
      rw [if_pos rfl]
      exact ⟨_, rfl, here hother⟩
    · rw [if_neg hsame, there (fun heq => hsame (Option.some.inj (hother.symm.trans heq)))]
      exact inv.current other hother

lemma current_setParts {l' : Lists} (inv : Inv l next) (h : l.find key = some dev)
    {numParts : UInt16} (devices : l'.devices = (l.setParts key numParts parts).devices)
    (same : l'.currentDev = l.currentDev) (here : l.currentDev = some key →
      parts[l'.currentPartnum.toNat]? = dev.parts[l.currentPartnum.toNat]?)
    (there : l.currentDev ≠ some key → l'.currentPartnum = l.currentPartnum) :
    l'.current = l.current := by
  unfold Lists.current
  rw [same]
  cases hcur : l.currentDev with
  | none => rfl
  | some other =>
    have hfind : l'.find other =
        if other = key then some (dev.withParts numParts parts) else l.find other := by
      rw [← find_setParts inv.keys h numParts parts other, Lists.find, Lists.find, devices]
    simp only [hfind]
    by_cases hsame : other = key
    · subst hsame
      rw [if_pos rfl, h]
      exact here hcur
    · rw [if_neg hsame, there (fun heq => hsame (Option.some.inj (hcur.symm.trans heq)))]

lemma mtdPartInfo_current (inv : Inv l next) (h : l.find key = some dev)
    (here : l.currentDev = some key) :
    ∃ curr, l.current = some curr ∧ dev.parts[l.currentPartnum.toNat]? = some curr ∧
      mtdPartInfo dev l.currentPartnum = ([], some curr) := by
  obtain ⟨found, hfound, hlt⟩ := inv.current key here
  obtain rfl : dev = found := Option.some.inj (h.symm.trans hfound)
  have hcount := inv.count dev (List.mem_of_find?_eq_some h)
  have hget := List.getElem?_eq_getElem hlt
  refine ⟨_, ?_, hget, ?_⟩
  · simp only [Lists.current, here, h, hget]
  · rw [mtdPartInfo, if_neg (by omega), hget]

/-! ## The two calls -/

variable {part : PartInfo}

/-- What a call does to lists in order, as long as its index arithmetic is right. -/
structure Keeps (l : Lists) (next' : Nat) (e : Edit) : Prop where
  inv : Inv e.lists next'
  current : e.lists.current = l.current
  dev : e.lists.currentDev = l.currentDev
  partnum : e.save = false → e.lists.currentPartnum = l.currentPartnum

lemma keeps_setParts {l' : Lists} {next' : Nat} {save : Bool} (inv : Inv l next)
    (h : l.find key = some dev) {numParts : UInt16} (fine : Fine dev next next' numParts parts)
    (devices : l'.devices = (l.setParts key numParts parts).devices)
    (same : l'.currentDev = l.currentDev) (here : l.currentDev = some key →
      parts[l'.currentPartnum.toNat]? = dev.parts[l.currentPartnum.toNat]?)
    (there : l.currentDev = some key ∧ save = true ∨ l'.currentPartnum = l.currentPartnum) :
    Keeps l next' ⟨l', [], save⟩ := by
  have unmoved (hno : l.currentDev ≠ some key) : l'.currentPartnum = l.currentPartnum :=
    there.resolve_left fun moved => hno moved.1
  refine ⟨inv_setParts inv h fine devices same (fun hkey => ?_) unmoved,
    current_setParts inv h devices same here unmoved, same, fun kept => there.resolve_left ?_⟩
  · obtain ⟨_, -, hget, -⟩ := mtdPartInfo_current inv h hkey
    exact (List.getElem?_eq_some_iff.mp ((here hkey).trans hget)).1
  · exact fun moved => Bool.false_ne_true (kept.symm.trans moved.2)

structure RoomToAdd (l : Lists) (dev : MtdDevice) (offset : UInt32) : Prop where
  count : dev.parts.length < 65535
  index : l.currentDev = some dev.key → ∀ curr, l.current = some curr →
    offset ≤ curr.offset → l.currentPartnum ≠ 255

lemma fine_insert (inv : Inv l next) (hdev : dev ∈ l.devices) (fresh : part.self = next)
    {pre post : List PartInfo} (split : dev.parts = pre ++ post)
    (before : ∀ q ∈ pre, q.offset < part.offset)
    (behind : ∀ q, post.head? = some q → part.offset ≤ q.offset) (room : dev.parts.length < 65535) :
    Fine dev next (next + 1) (dev.numParts + 1) (pre ++ part :: post) := by
  have hsorted := inv.sorted dev hdev
  have hknown := inv.known dev hdev
  have hcount := inv.count dev hdev
  have hdistinct : (dev.parts.map PartInfo.self).Nodup :=
    (List.nodup_flatMap.mp inv.distinct).1 dev hdev
  rw [split] at hsorted hknown hdistinct
  have hmem : ∀ p ∈ pre ++ part :: post, p = part ∨ p ∈ pre ++ post := by
    intro p hp
    simp only [List.mem_append, List.mem_cons] at hp ⊢
    rcases hp with hp | hp | hp
    · exact .inr (.inl hp)
    · exact .inl hp
    · exact .inr (.inr hp)
  constructor
  case sorted => exact sorted_insert hsorted before behind
  case count =>
    rw [split] at hcount room
    rw [UInt16.toNat_add, hcount]
    simp only [List.length_append, List.length_cons] at room ⊢
    change (pre.length + post.length + 1) % 65536 = _
    omega
  case nonempty => simp
  case distinct =>
    have hfresh : part.self ∉ (pre ++ post).map PartInfo.self := by
      intro hin
      obtain ⟨q, hq, heq⟩ := List.mem_map.mp hin
      have hlt := hknown q hq
      omega
    rw [List.map_append, List.map_cons]
    rw [List.map_append] at hdistinct hfresh
    exact List.nodup_middle.mpr (List.nodup_cons.mpr ⟨hfresh, hdistinct⟩)
  case known =>
    intro p hp
    rcases hmem p hp with rfl | hin
    · exact .inr fresh
    · exact .inl (split ▸ hin)
  case bound =>
    intro p hp
    rcases hmem p hp with rfl | hin
    · omega
    · have hlt := hknown p hin
      omega
  case le => omega

lemma partSortAdd_keeps (inv : Inv l next) (h : l.find key = some dev) (fresh : part.self = next)
    (room : RoomToAdd l dev part.offset) {e : Edit} (added : partSortAdd dev part l = .ok e) :
    Keeps l (next + 1) e := by
  have hdev : dev ∈ l.devices := List.mem_of_find?_eq_some h
  have hkey : dev.key = key := by simpa using List.find?_some h
  subst hkey
  have hne := inv.nonempty dev hdev
  unfold partSortAdd at added
  cases hsort : Mtdparts.partSortAdd PartInfo.offset part dev.parts with
  | error err => simp [hsort] at added
  | ok parts =>
    obtain ⟨pre, post, hsplit, rfl, hbefore, hbehind⟩ := partSortAdd_split hsort
    have hfine := fine_insert inv hdev fresh hsplit hbefore hbehind room.count
    have hfind : dev.parts.find? (fun pi => part.offset ≤ pi.offset) = post.head? := by
      rw [hsplit]
      exact find_behind hbefore hbehind
    by_cases here : l.currentDev = some dev.key
    · obtain ⟨curr, hcurr, hget, hinfo⟩ := mtdPartInfo_current inv h here
      have hwhich : dev.parts ≠ [] ∧ l.currentDev = some dev.key := ⟨hne, here⟩
      simp only [hsort, hfind, if_pos hwhich, hinfo] at added
      -- the new partition goes in front of the current one, or behind it
      by_cases hplace : l.currentPartnum.toNat < pre.length
      · have hpreGet : pre[l.currentPartnum.toNat]? = some curr := by
          rw [hsplit, List.getElem?_append_left hplace] at hget
          exact hget
        have hless := hbefore curr (List.mem_of_getElem? hpreGet)
        have hedit : e = ⟨l.setParts dev.key (dev.numParts + 1) (pre ++ part :: post), [], false⟩ := by
          cases hhead : post.head? with
          | none => simpa [hhead] using added.symm
          | some pi =>
            have hnot : ¬ pi.offset ≤ curr.offset := by
              rw [UInt32.not_le]
              exact UInt32.lt_of_lt_of_le hless (hbehind pi hhead)
            simpa [hhead, hnot] using added.symm
        subst hedit
        refine keeps_setParts inv h hfine rfl rfl (fun _ => ?_) (.inr rfl)
        change (pre ++ part :: post)[l.currentPartnum.toNat]? = _
        rw [hget, List.getElem?_append_left hplace, hpreGet]
      · have hpostGet : post[l.currentPartnum.toNat - pre.length]? = some curr := by
          rw [hsplit, List.getElem?_append_right (Nat.le_of_not_lt hplace)] at hget
          exact hget
        obtain ⟨pi, rest, rfl⟩ : ∃ pi rest, post = pi :: rest := by
          cases post with
          | nil => simp at hpostGet
          | cons pi rest => exact ⟨pi, rest, rfl⟩
        have hle : pi.offset ≤ curr.offset := by
          have hsorted := inv.sorted dev hdev
          rw [hsplit] at hsorted
          have hpost := (List.pairwise_append.mp hsorted).2.1
          rcases List.mem_cons.mp (List.mem_of_getElem? hpostGet) with rfl | hmem
          · exact UInt32.le_refl _
          · exact (List.pairwise_cons.mp hpost).1 curr hmem
        have hmax := room.index here curr hcurr (UInt32.le_trans (hbehind pi rfl) hle)
        have hplus : (l.currentPartnum + 1).toNat = l.currentPartnum.toNat + 1 := by
          have hlt255 : l.currentPartnum.toNat ≠ 255 := fun heq => hmax (UInt8.toNat_inj.mp heq)
          have hbyte := l.currentPartnum.toNat_lt
          rw [UInt8.toNat_add]
          change (l.currentPartnum.toNat + 1) % 256 = _
          omega
        have hedit : e = ⟨{ l.setParts dev.key (dev.numParts + 1) (pre ++ part :: pi :: rest) with
            currentPartnum := l.currentPartnum + 1 }, [], true⟩ := by
          simpa [hle] using added.symm
        subst hedit
        refine keeps_setParts inv h hfine rfl rfl (fun _ => ?_) (.inl ⟨here, rfl⟩)
        change (pre ++ part :: pi :: rest)[(l.currentPartnum + 1).toNat]? = _
        rw [hget, hplus, List.getElem?_append_right (by omega),
          Nat.sub_add_comm (Nat.le_of_not_lt hplace), List.getElem?_cons_succ, hpostGet]
    · have hedit : e = ⟨l.setParts dev.key (dev.numParts + 1) (pre ++ part :: post), [], false⟩ := by
        simp only [hsort, here] at added
        cases hhead : post.head? with
        | none => simpa [hfind, hhead] using added.symm
        | some pi => simpa [hfind, hhead] using added.symm
      subst hedit
      exact keeps_setParts inv h hfine rfl rfl (fun heq => absurd heq here) (.inr rfl)

def ToldApart (l : Lists) (dev : MtdDevice) (part : PartInfo) : Prop :=
  l.currentDev = some dev.key → ∀ curr, l.current = some curr → curr.self ≠ part.self →
    part.offset = curr.offset → dev.parts.idxOf part < l.currentPartnum.toNat

lemma inv_remove {l' : Lists} (inv : Inv l next) (devices : l'.devices.Sublist l.devices)
    (current : ∀ key, l'.currentDev = some key →
      ∃ dev, l'.find key = some dev ∧ l'.currentPartnum.toNat < dev.parts.length) :
    Inv l' next where
  keys := inv.keys.sublist (devices.map _)
  sorted := fun dev hdev => inv.sorted dev (devices.subset hdev)
  count := fun dev hdev => inv.count dev (devices.subset hdev)
  nonempty := fun dev hdev => inv.nonempty dev (devices.subset hdev)
  distinct := inv.distinct.sublist (devices.flatMap _)
  known := fun dev hdev => inv.known dev (devices.subset hdev)
  current := current

lemma find_filter {other : DevType × UInt8} (different : other ≠ key) :
    (l.devices.filter (fun dev => dev.key ≠ key)).find? (fun dev => dev.key = other) =
      l.find other := by
  rw [List.find?_filter, Lists.find]
  congr 1
  funext dev
  by_cases h : dev.key = other
  · simp [h, different]
  · simp [h]

lemma deviceDel_keeps (inv : Inv l next) (other : l.currentDev ≠ some key) :
    Keeps l next (deviceDel key l) := by
  have hedit : deviceDel key l =
      ⟨{ l with devices := l.devices.filter (fun dev => dev.key ≠ key) }, [], false⟩ := by
    rw [deviceDel, if_neg other]
  have hfind : ∀ k, l.currentDev = some k →
      (l.devices.filter (fun dev => dev.key ≠ key)).find? (fun dev => dev.key = k) = l.find k :=
    fun k hk => find_filter (fun heq => other (heq ▸ hk))
  rw [hedit]
  constructor
  case inv =>
    refine inv_remove inv List.filter_sublist ?_
    intro k hk
    obtain ⟨dev, hdev, hlt⟩ := inv.current k hk
    exact ⟨dev, (hfind k hk).trans hdev, hlt⟩
  case current =>
    unfold Lists.current
    cases hcur : l.currentDev with
    | none => rfl
    | some k =>
      simp only [← hfind k hcur]
      rfl
  case dev => rfl
  case partnum => exact fun _ => rfl

lemma deviceDel_current (inv : Inv l next) (here : l.currentDev = some key) :
    Inv (deviceDel key l).lists next ∧ (deviceDel key l).save = true := by
  rw [deviceDel, if_pos here]
  cases hleft : l.devices.filter (fun dev => dev.key ≠ key) with
  | nil =>
    exact ⟨inv_remove inv (List.nil_sublist _) (fun k hk => by simp at hk), rfl⟩
  | cons first rest =>
    have hsub : (first :: rest).Sublist l.devices := hleft ▸ List.filter_sublist
    refine ⟨inv_remove inv hsub ?_, rfl⟩
    intro k hk
    cases hk
    have hne := inv.nonempty first (hsub.subset List.mem_cons_self)
    exact ⟨first, by simp [Lists.find], List.length_pos_iff.mpr hne⟩

lemma filter_self (distinct : (parts.map PartInfo.self).Nodup) (hpart : part ∈ parts) :
    ∃ pre post, parts = pre ++ part :: post ∧
      parts.filter (fun p => p.self ≠ part.self) = pre ++ post ∧
      parts.idxOf part = pre.length ∧ ∀ p ∈ pre ++ post, p.self ≠ part.self := by
  obtain ⟨pre, post, rfl⟩ := List.append_of_mem hpart
  rw [List.map_append, List.map_cons] at distinct
  have hnot := (List.nodup_cons.mp (List.nodup_middle.mp distinct)).1
  rw [← List.map_append] at hnot
  have hne : ∀ p ∈ pre ++ post, p.self ≠ part.self := by
    intro p hp heq
    exact hnot (heq ▸ List.mem_map_of_mem hp)
  refine ⟨pre, post, rfl, ?_, ?_, hne⟩
  · rw [List.filter_append, List.filter_cons_of_neg (by simp)]
    rw [List.filter_eq_self.mpr (fun p hp => by simpa using hne p (List.mem_append_left _ hp)),
      List.filter_eq_self.mpr (fun p hp => by simpa using hne p (List.mem_append_right _ hp))]
  · have hpre : part ∉ pre := fun hp => hne part (List.mem_append_left _ hp) rfl
    rw [List.idxOf_append_of_notMem hpre, List.idxOf_cons_self, add_zero]

lemma fine_delete (inv : Inv l next) (hdev : dev ∈ l.devices) {pre post : List PartInfo}
    (split : dev.parts = pre ++ part :: post) (several : dev.numParts ≠ 1) :
    Fine dev next next (dev.numParts - 1) (pre ++ post) := by
  have hsub : (pre ++ post).Sublist dev.parts := by
    rw [split]
    exact (List.Sublist.refl pre).append (List.sublist_cons_self part post)
  have hcount := inv.count dev hdev
  have hdistinct : (dev.parts.map PartInfo.self).Nodup :=
    (List.nodup_flatMap.mp inv.distinct).1 dev hdev
  have hlen : dev.parts.length = (pre ++ post).length + 1 := by
    rw [split]
    simp only [List.length_append, List.length_cons]
    omega
  have hone : dev.numParts.toNat ≠ 1 := fun heq => several (UInt16.toNat_inj.mp heq)
  constructor
  case sorted => exact (inv.sorted dev hdev).sublist hsub
  case count =>
    have hle : (1 : UInt16) ≤ dev.numParts := by
      change 1 ≤ dev.numParts.toNat
      omega
    rw [UInt16.toNat_sub_of_le _ _ hle]
    change dev.numParts.toNat - 1 = _
    omega
  case nonempty =>
    intro hnil
    rw [hnil] at hlen
    simp only [List.length_nil] at hlen
    omega
  case distinct => exact hdistinct.sublist (hsub.map _)
  case known => exact fun p hp => .inl (hsub.subset hp)
  case bound => exact fun p hp => inv.known dev hdev p (hsub.subset hp)
  case le => exact le_rfl

lemma partDel_keeps (inv : Inv l next) (h : l.find key = some dev) (hpart : part ∈ dev.parts)
    (apart : ToldApart l dev part)
    (stays : l.currentDev = some key → ∀ curr, l.current = some curr → curr.self ≠ part.self) :
    Keeps l next (partDel dev part l) := by
  have hdev : dev ∈ l.devices := List.mem_of_find?_eq_some h
  have hkey : dev.key = key := by simpa using List.find?_some h
  subst hkey
  have hdistinct : (dev.parts.map PartInfo.self).Nodup :=
    (List.nodup_flatMap.mp inv.distinct).1 dev hdev
  obtain ⟨pre, post, hsplit, hfilter, hidx, hothers⟩ := filter_self hdistinct hpart
  by_cases hone : dev.numParts = 1
  · rw [partDel, if_pos hone]
    apply deviceDel_keeps inv
    intro here
    -- the only partition would be the current one
    obtain ⟨curr, hcurr, hget, -⟩ := mtdPartInfo_current inv h here
    have hlen : dev.parts.length = 1 := by
      rw [← inv.count dev hdev, hone]
      rfl
    obtain ⟨q, hq⟩ := List.length_eq_one_iff.mp hlen
    rw [hq] at hpart
    have hin := List.mem_of_getElem? hget
    rw [hq, List.mem_singleton] at hin
    rw [List.mem_singleton] at hpart
    exact stays here curr hcurr (by rw [hin, hpart])
  have hfine := fine_delete inv hdev hsplit hone
  rw [partDel, if_neg hone]
  simp only [hfilter]
  by_cases here : l.currentDev = some dev.key
  · obtain ⟨curr, hcurr, hget, hinfo⟩ := mtdPartInfo_current inv h here
    have hself := stays here curr hcurr
    have hsorted := inv.sorted dev hdev
    rw [hsplit] at hget hsorted
    obtain ⟨-, hpost, hcross⟩ := List.pairwise_append.mp hsorted
    simp only [if_pos here, hinfo, if_neg hself]
    by_cases hplace : l.currentPartnum.toNat < pre.length
    · have hpreGet : pre[l.currentPartnum.toNat]? = some curr := by
        rw [List.getElem?_append_left hplace] at hget
        exact hget
      have hle := hcross curr (List.mem_of_getElem? hpreGet) part List.mem_cons_self
      have hnot : ¬ part.offset ≤ curr.offset := by
        intro hge
        have hless := apart here curr hcurr hself (UInt32.le_antisymm hge hle)
        omega
      rw [if_neg hnot]
      refine keeps_setParts inv h hfine rfl rfl (fun _ => ?_) (.inr rfl)
      change (pre ++ post)[l.currentPartnum.toNat]? = _
      rw [List.getElem?_append_left hplace, hsplit, List.getElem?_append_left hplace]
    have hne : l.currentPartnum.toNat ≠ pre.length := by
      intro heq
      rw [heq, List.getElem?_append_right le_rfl, Nat.sub_self] at hget
      exact hself (congrArg PartInfo.self (Option.some.inj hget).symm)
    obtain ⟨i, hi⟩ : ∃ i, l.currentPartnum.toNat = pre.length + 1 + i :=
      Nat.exists_eq_add_of_le (by omega)
    have hpostGet : post[i]? = some curr := by
      rw [hi, List.getElem?_append_right (by omega),
        show pre.length + 1 + i - pre.length = i + 1 by omega] at hget
      exact hget
    have hle : part.offset ≤ curr.offset :=
      (List.pairwise_cons.mp hpost).1 curr (List.mem_of_getElem? hpostGet)
    have hminus : (l.currentPartnum - 1).toNat = pre.length + i := by
      have hone : (1 : UInt8) ≤ l.currentPartnum := by
        change 1 ≤ l.currentPartnum.toNat
        omega
      rw [UInt8.toNat_sub_of_le _ _ hone]
      change l.currentPartnum.toNat - 1 = _
      omega
    rw [if_pos hle]
    refine keeps_setParts inv h hfine rfl rfl (fun _ => ?_) (.inl ⟨here, rfl⟩)
    change (pre ++ post)[(l.currentPartnum - 1).toNat]? = _
    rw [hminus, List.getElem?_append_right (by omega), Nat.add_sub_cancel_left, hpostGet,
      hsplit, hget]
  · rw [if_neg here]
    exact keeps_setParts inv h hfine rfl rfl (fun heq => absurd heq here) (.inr rfl)

lemma partDel_current (inv : Inv l next) (h : l.find key = some dev) {curr : PartInfo}
    (hpart : part ∈ dev.parts) (here : l.currentDev = some key) (hcurr : l.current = some curr)
    (same : curr.self = part.self) :
    Inv (partDel dev part l).lists next ∧ (partDel dev part l).save = true := by
  have hdev : dev ∈ l.devices := List.mem_of_find?_eq_some h
  have hkey : dev.key = key := by simpa using List.find?_some h
  subst hkey
  have hdistinct : (dev.parts.map PartInfo.self).Nodup :=
    (List.nodup_flatMap.mp inv.distinct).1 dev hdev
  obtain ⟨pre, post, hsplit, hfilter, -, -⟩ := filter_self hdistinct hpart
  by_cases hone : dev.numParts = 1
  · rw [partDel, if_pos hone]
    exact deviceDel_current inv here
  have hfine := fine_delete inv hdev hsplit hone
  obtain ⟨curr', hcurr', -, hinfo⟩ := mtdPartInfo_current inv h here
  obtain rfl : curr = curr' := Option.some.inj (hcurr.symm.trans hcurr')
  rw [partDel, if_neg hone]
  simp only [hfilter, if_pos here, hinfo, if_pos same]
  refine ⟨inv_setParts inv h hfine rfl rfl ?_ (fun hno => absurd here hno), trivial⟩
  intro _
  exact List.length_pos_iff.mpr hfine.nonempty

end PartLists
