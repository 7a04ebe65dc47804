import UBoot.Mtd.PartAdd

/-!
# The partition that an identifier denotes (common/cmd_mtdparts.c)

`find_dev_and_part` takes a partition's name or `<type><n>,<k>`. It counts partitions and keeps both
numbers in eight bits. `chpart` and `mtdparts del` act on what it returns.
-/

namespace FindPart

open EnvArea Mtdparts NumberText PartLists
open PartAdd (mtdIdParse deviceType mtdpartsMaxlen)

/-- What is stored through `dev`, `part_num` and `part`. -/
structure Found where
  dev : MtdDevice
  partNum : UInt8
  part : PartInfo

/-- The search for a name among the partitions of a device, at position `partNum`. -/
def findNamed (id : Text) : UInt8 → List PartInfo → Option (UInt8 × PartInfo)
  | _, [] => none
  | partNum, part :: parts =>
    if part.name.val = id then some (partNum, part) else findNamed id (partNum + 1) parts

def foundIn (id : Text) (dev : MtdDevice) : Option Found :=
  (findNamed id 0 dev.parts).map (fun r => ⟨dev, r.1, r.2⟩)

def lookUp (l : Lists) (type : DevType) (dnum pnum : UInt8) :
    Except (List PartLists.Line) Found :=
  match l.find (type, dnum) with
  | none => .error [.parts (.noSuchDevice type dnum)]
  | some dev =>
    match mtdPartInfo dev pnum with
    | (out, none) => .error (out ++ [.parts .noSuchPartition])
    | (_, some part) => .ok ⟨dev, pnum, part⟩

def findNumbered (l : Lists) (id : Text) : Except (List PartLists.Line) Found :=
  match mtdIdParse id with
  | .error e => .error (e.map .parts)
  | .ok (_, _, []) => .error [.parts .noPartnum]
  | .ok (type, dnum, c :: p) =>
    if c ≠ 44 ∨ p = [] then .error [.parts .noPartnum]
    else
      match (simpleStrtoul p 0).2 with
      | c :: _ => .error [.parts (.trailingCharacter c)]
      | [] => lookUp l type dnum (simpleStrtoul p 0).1.toUInt8

/-- `find_dev_and_part`. Where it returns 1, `*dev` and `*part` are NULL and `*part_num` is 0. -/
def findDevAndPart (l : Lists) (id : Text) : Except (List PartLists.Line) Found :=
  match l.devices.findSome? (foundIn id) with
  | some found => .ok found
  | none => findNumbered l id

/-! ## The commands -/

inductive Said where
  | list (m : PartLists.Line)
  | noPartitionId                           -- no partition id specified
  | changed (key : DevType × UInt8) (partNum : UInt8)  -- partition changed to %s%d,%d
  | generatedTooLong                        -- generated mtdparts too long, reseting to null
  | notFound (id : Text)                    -- partition %s not found
  deriving DecidableEq

structure Outcome where
  ret : Nat
  state : State
  said : List Said

/-- `do_chpart`, behind `mtdparts_init`, with its argument if there is one. -/
def doChpart (sys : Sys) (s : State) (id : Option Text) : Option Outcome :=
  match id with
  | none => some ⟨1, s, [.noPartitionId]⟩
  | some id =>
    match findDevAndPart s.lists id with
    | .error e => some ⟨1, s, e.map .list⟩
    | .ok found =>
      let lists := { s.lists with
        currentDev := some found.dev.key, currentPartnum := found.partNum }
      (currentSave sys { s with lists := lists, out := [] }).map
        (fun s => ⟨0, s, s.out.map .list ++ [.changed found.dev.key found.partNum]⟩)

def mtdpartsName : Name := ⟨[109, 116, 100, 112, 97, 114, 116, 115], by decide⟩

/-- `generate_mtdparts_save (last_parts, MTDPARTS_MAXLEN)`. -/
def generateMtdpartsSave (sys : Sys) (s : State) : Option Outcome :=
  let devices := s.lists.devices.map (fun dev => ⟨dev.id, dev.parts.map PartInfo.part⟩)
  match generateMtdparts devices mtdpartsMaxlen with
  | none => (setenv sys mtdpartsName none s).map
      (fun s => ⟨1, s, s.out.map .list ++ [.generatedTooLong]⟩)
  | some buf => (setenv sys mtdpartsName (if buf = [] then none else some buf) s).map
      (fun s => ⟨0, s, s.out.map .list⟩)

/-- `delete_partition`, which is all of `mtdparts del` behind `mtdparts_init`. -/
def deletePartition (sys : Sys) (s : State) (id : Text) : Option Outcome :=
  match findDevAndPart s.lists id with
  | .error e => some ⟨1, s, e.map .list ++ [.notFound id]⟩
  | .ok found =>
    (finish sys (partDel found.dev found.part s.lists) s).bind (generateMtdpartsSave sys)

/-! ## What an identifier denotes -/

/-- A text that `simple_strtoul` reads to its end, and the number it writes. -/
structure Numeral (t : Text) (n : Nat) : Prop where
  nonempty : t ≠ []
  whole : (simpleStrtoul t 0).2 = []
  value : strtoulValue t 0 = n

structure Numbers (id : Text) (type : DevType) (n k : Nat) : Prop where
  split : ∃ devNum partNum, id = type.text ++ (devNum ++ 44 :: partNum) ∧
    (∃ d t, devNum = d :: t ∧ isDigit d = true) ∧ Numeral devNum n ∧ Numeral partNum k

structure Named (l : Lists) (id : Text) (dev : MtdDevice) (pos : Nat) (part : PartInfo) : Prop where
  device : dev ∈ l.devices
  there : dev.parts[pos]? = some part
  name : part.name.val = id

/-- A partition by numbers that are not those of another one modulo 256. -/
structure Numbered (l : Lists) (id : Text) (dev : MtdDevice) (pos : Nat) (part : PartInfo) :
    Prop where
  device : dev ∈ l.devices
  there : dev.parts[pos]? = some part
  numbers : Numbers id dev.id.type dev.id.num.toNat pos

def Denotes (l : Lists) (id : Text) (dev : MtdDevice) (pos : Nat) (part : PartInfo) : Prop :=
  Named l id dev pos part ∨
    (∀ dev' pos' part', ¬ Named l id dev' pos' part') ∧ Numbered l id dev pos part

/-- The search agrees with what the identifier denotes, and the commands only act on that. -/
structure Agrees (l : Lists) (id : Text) : Prop where
  sound : ∀ found, findDevAndPart l id = .ok found →
    Denotes l id found.dev found.partNum.toNat found.part
  complete : ∀ dev pos part, Denotes l id dev pos part → ∃ found, findDevAndPart l id = .ok found
  chpart : ∀ sys s outcome, s.lists = l → doChpart sys s (some id) = some outcome →
    outcome.state = s ∨ ∃ dev pos part, Denotes l id dev pos part ∧
      outcome.state.lists.devices = l.devices ∧
      outcome.state.lists.currentDev = some dev.key ∧
      outcome.state.lists.currentPartnum.toNat = pos
  del : ∀ sys s outcome, s.lists = l → deletePartition sys s id = some outcome →
    outcome.state = s ∨ ∃ dev pos part, Denotes l id dev pos part ∧
      outcome.state.lists.devices = (partDel dev part l).lists.devices

structure Table (l : Lists) : Prop where
  keys : (l.devices.map MtdDevice.key).Nodup
  count : ∀ dev ∈ l.devices, dev.numParts.toNat = dev.parts.length
  distinct : ∀ dev ∈ l.devices, dev.parts.Nodup

def firstNamed (l : Lists) (id : Text) : Option (MtdDevice × Nat) :=
  l.devices.findSome? fun dev =>
    (dev.parts.findIdx? (fun part => part.name.val = id)).map (fun pos => (dev, pos))

/-- A name is found at a position below 256. Numbers of a partition by which another one would be
found modulo 256 are below 256 themselves. -/
structure EightBits (l : Lists) (id : Text) : Prop where
  name : ∀ dev pos, firstNamed l id = some (dev, pos) → pos < 256
  numbers : firstNamed l id = none → ∀ type n k, Numbers id type n k →
    n < 256 ∧ k < 256 ∨
      ∀ dev, l.find (type, UInt8.ofNat n) = some dev → dev.parts.length ≤ k % 256

/-! ## The search for a name -/

variable {id : Text} {dev : MtdDevice} {found : Found} {l : Lists}

lemma findNamed_findIdx (id : Text) (partNum : UInt8) (parts : List PartInfo) :
    findNamed id partNum parts =
      (parts.findIdx? (fun part => part.name.val = id)).bind (fun pos =>
        parts[pos]?.map (fun part => (partNum + UInt8.ofNat pos, part))) := by
  induction parts generalizing partNum with
  | nil => rfl
  | cons part parts ih =>
    rw [findNamed, List.findIdx?_cons]
    by_cases named : part.name.val = id
    · rw [if_pos named, if_pos (decide_eq_true named)]
      simp
    rw [if_neg named, if_neg (by simpa using named), ih, Option.bind_map]
    congr 1
    funext pos
    have position : partNum + 1 + UInt8.ofNat pos = partNum + UInt8.ofNat (pos + 1) := by
      rw [UInt8.add_assoc, UInt8.add_comm 1, UInt8.ofNat_add]
      rfl
    rw [Function.comp_apply, List.getElem?_cons_succ, position]

lemma foundIn_some (h : foundIn id dev = some found) :
    ∃ pos, dev.parts.findIdx? (fun part => part.name.val = id) = some pos ∧
      found.dev = dev ∧ found.partNum = UInt8.ofNat pos ∧ dev.parts[pos]? = some found.part ∧
      found.part.name.val = id := by
  rw [foundIn, findNamed_findIdx] at h
  obtain ⟨r, searched, rfl⟩ := Option.map_eq_some_iff.mp h
  obtain ⟨pos, first, counted⟩ := Option.bind_eq_some_iff.mp searched
  obtain ⟨part, there, rfl⟩ := Option.map_eq_some_iff.mp counted
  obtain ⟨inside, named, -⟩ := List.findIdx?_eq_some_iff_getElem.mp first
  have name : part.name.val = id := by
    obtain ⟨bound, rfl⟩ := List.getElem?_eq_some_iff.mp there
    exact of_decide_eq_true named
  exact ⟨pos, first, rfl, UInt8.zero_add _, there, name⟩

lemma foundIn_none (h : foundIn id dev = none) :
    dev.parts.findIdx? (fun part => part.name.val = id) = none := by
  cases first : dev.parts.findIdx? (fun part => decide (part.name.val = id)) with
  | none => rfl
  | some pos =>
    obtain ⟨inside, -, -⟩ := List.findIdx?_eq_some_iff_getElem.mp first
    rw [foundIn, findNamed_findIdx, first] at h
    simp [List.getElem?_eq_getElem inside] at h

lemma findName_some (h : l.devices.findSome? (foundIn id) = some found) :
    ∃ pos, firstNamed l id = some (found.dev, pos) ∧ found.partNum = UInt8.ofNat pos ∧
      Named l id found.dev pos found.part := by
  obtain ⟨front, dev, back, split, hit, miss⟩ := List.findSome?_eq_some_iff.mp h
  obtain ⟨pos, first, rfl, counted, there, name⟩ := foundIn_some hit
  have device : found.dev ∈ l.devices := by simp [split]
  refine ⟨pos, ?_, counted, ⟨device, there, name⟩⟩
  refine List.findSome?_eq_some_iff.mpr ⟨front, found.dev, back, split, ?_, ?_⟩
  · rw [first]
    rfl
  · intro other before
    rw [foundIn_none (miss other before)]
    rfl

lemma findName_none (h : l.devices.findSome? (foundIn id) = none) :
    firstNamed l id = none ∧ ∀ dev pos part, ¬ Named l id dev pos part := by
  have misses := List.findSome?_eq_none_iff.mp h
  constructor
  · refine List.findSome?_eq_none_iff.mpr fun dev device => ?_
    rw [foundIn_none (misses dev device)]
    rfl
  · rintro dev pos part ⟨device, there, name⟩
    have none := List.findIdx?_eq_none_iff.mp (foundIn_none (misses dev device))
    exact of_decide_eq_false (none part (List.mem_of_getElem? there)) name

/-! ## The numbers -/

variable {type : DevType}

lemma deviceType_iff {p : Text} :
    deviceType id = some (type, p) ↔ id = type.text ++ p := by
  constructor
  · intro read
    fun_cases deviceType id with
    | case1 rest | case2 rest | case3 rest =>
      obtain ⟨rfl, rfl⟩ := Prod.mk.inj (Option.some.inj read)
      rfl
    | case4 => exact absurd read (by simp [deviceType])
  · rintro rfl
    cases type with
    | nor | nand | onenand => rfl

lemma comma_ends : Ends 44 := ⟨rfl, by decide⟩

/-- How the numbers of an identifier are read: `p` starts with the first, `q` with the second. -/
structure Reads (id : Text) (type : DevType) (p q : Text) : Prop where
  type : deviceType id = some (type, p)
  digit : (p.head?.map isDigit).getD false = true
  comma : (simpleStrtoul p 0).2 = 44 :: q
  nonempty : q ≠ []
  whole : (simpleStrtoul q 0).2 = []

lemma Numbers.reads {n k : Nat} (numbers : Numbers id type n k) :
    ∃ p q, Reads id type p q ∧ strtoulValue p 0 = n ∧ strtoulValue q 0 = k := by
  obtain ⟨devNum, q, split, ⟨d, t, start, digit⟩, dev, part⟩ := numbers.split
  have comma : (simpleStrtoul (devNum ++ 44 :: q) 0).2 = 44 :: q := by
    rw [simpleStrtoul_seam comma_ends, dev.whole]
    rfl
  refine ⟨devNum ++ 44 :: q, q, ⟨deviceType_iff.mpr split, ?_, comma, part.nonempty, part.whole⟩,
    ?_, part.value⟩
  · rw [start]
    exact digit
  · rw [strtoulValue_seam comma_ends]
    exact dev.value

lemma Reads.numbers {p q : Text} (reads : Reads id type p q) :
    Numbers id type (strtoulValue p 0) (strtoulValue q 0) := by
  obtain ⟨devNum, split⟩ := simpleStrtoul_suffix p 0
  rw [reads.comma] at split
  have seam : ((simpleStrtoul devNum 0).1, (simpleStrtoul devNum 0).2 ++ 44 :: q).2 = 44 :: q := by
    rw [← simpleStrtoul_seam comma_ends, ← split]
    exact reads.comma
  have whole : (simpleStrtoul devNum 0).2 = [] := List.append_left_eq_self.mp seam
  have value : strtoulValue devNum 0 = strtoulValue p 0 := by
    rw [split, strtoulValue_seam comma_ends]
  have digit : ∃ d t, devNum = d :: t ∧ isDigit d = true := by
    have starts := reads.digit
    rw [split] at starts
    cases devNum with
    | nil => exact absurd starts (show ¬ isDigit 44 = true by decide)
    | cons d t => exact ⟨d, t, rfl, starts⟩
  have nonempty : devNum ≠ [] := by
    obtain ⟨d, t, start, -⟩ := digit
    rw [start]
    exact List.cons_ne_nil d t
  refine ⟨devNum, q, ?_, digit, ⟨nonempty, whole, value⟩, ⟨reads.nonempty, reads.whole, rfl⟩⟩
  rw [← split]
  exact deviceType_iff.mp reads.type

lemma Numbers.unique {type' : DevType} {n n' k k' : Nat} (numbers : Numbers id type n k)
    (numbers' : Numbers id type' n' k') :
    type = type' ∧ n = n' ∧ k = k' := by
  obtain ⟨p, q, reads, rfl, rfl⟩ := numbers.reads
  obtain ⟨p', q', reads', rfl, rfl⟩ := numbers'.reads
  obtain ⟨rfl, rfl⟩ := Prod.mk.inj (Option.some.inj (reads.type.symm.trans reads'.type))
  obtain ⟨-, rfl⟩ := List.cons.inj (reads.comma.symm.trans reads'.comma)
  exact ⟨rfl, rfl, rfl⟩

lemma strtoul_byte (t : Text) :
    (simpleStrtoul t 0).1.toUInt8 = UInt8.ofNat (strtoulValue t 0) := by
  rw [simpleStrtoul_value]
  apply UInt8.toNat_inj.mp
  rw [UInt32.toNat_toUInt8, UInt32.toNat_ofNat', UInt8.toNat_ofNat']
  omega

lemma lookUp_ok {dnum pnum : UInt8} :
    lookUp l type dnum pnum = .ok found ↔
      l.find (type, dnum) = some found.dev ∧ found.partNum = pnum ∧
        pnum.toNat < found.dev.numParts.toNat ∧
        found.dev.parts[pnum.toNat]? = some found.part := by
  rw [lookUp]
  cases known : l.find (type, dnum) with
  | none => simp
  | some dev =>
    dsimp only
    rw [mtdPartInfo]
    by_cases outside : dev.numParts.toNat ≤ pnum.toNat
    · rw [if_pos outside]
      constructor
      · intro absurd
        cases absurd
      · rintro ⟨same, -, inside, -⟩
        cases same
        omega
    rw [if_neg outside]
    have inside : pnum.toNat < dev.numParts.toNat := by omega
    cases there : dev.parts[pnum.toNat]? with
    | none =>
      constructor
      · intro absurd
        cases absurd
      · rintro ⟨same, -, -, part⟩
        cases same
        rw [there] at part
        cases part
    | some part =>
      constructor
      · intro returned
        obtain rfl := Except.ok.inj returned
        exact ⟨rfl, rfl, inside, there⟩
      · rintro ⟨same, number, -, part'⟩
        obtain ⟨dev', partNum, part''⟩ := found
        cases same
        obtain rfl : partNum = pnum := number
        obtain rfl := Option.some.inj (there.symm.trans part')
        rfl

lemma findNumbered_reads {p q : Text} (reads : Reads id type p q) :
    findNumbered l id =
      lookUp l type (UInt8.ofNat (strtoulValue p 0)) (UInt8.ofNat (strtoulValue q 0)) := by
  have go : ¬ ((44 : UInt8) ≠ 44 ∨ q = []) := by simp [reads.nonempty]
  rw [findNumbered, mtdIdParse, reads.type]
  dsimp only
  rw [if_pos reads.digit, reads.comma]
  dsimp only
  rw [if_neg go, reads.whole, strtoul_byte, strtoul_byte]

lemma reads_of_findNumbered (h : findNumbered l id = .ok found) :
    ∃ type p q, Reads id type p q := by
  rw [findNumbered, mtdIdParse] at h
  cases device : deviceType id with
  | none => simp [device] at h
  | some read =>
    obtain ⟨type, p⟩ := read
    rw [device] at h
    dsimp only at h
    by_cases digit : (p.head?.map isDigit).getD false = true
    · rw [if_pos digit] at h
      cases comma : (simpleStrtoul p 0).2 with
      | nil => simp [comma] at h
      | cons c q =>
        rw [comma] at h
        dsimp only at h
        by_cases stop : c ≠ 44 ∨ q = []
        · rw [if_pos stop] at h
          cases h
        obtain ⟨rfl, nonempty⟩ : c = 44 ∧ q ≠ [] := by simpa using stop
        rw [if_neg stop] at h
        cases whole : (simpleStrtoul q 0).2 with
        | nil => exact ⟨type, p, q, device, digit, comma, nonempty, whole⟩
        | cons d rest => simp [whole] at h
    · rw [if_neg digit] at h
      cases h

lemma findNumbered_ok :
    findNumbered l id = .ok found ↔ ∃ type n k, Numbers id type n k ∧
      l.find (type, UInt8.ofNat n) = some found.dev ∧ found.partNum = UInt8.ofNat k ∧
      k % 256 < found.dev.numParts.toNat ∧ found.dev.parts[k % 256]? = some found.part := by
  constructor
  · intro h
    obtain ⟨type, p, q, reads⟩ := reads_of_findNumbered h
    rw [findNumbered_reads reads, lookUp_ok] at h
    exact ⟨type, _, _, reads.numbers, h⟩
  · rintro ⟨type, n, k, numbers, looked⟩
    obtain ⟨p, q, reads, rfl, rfl⟩ := numbers.reads
    rw [findNumbered_reads reads, lookUp_ok]
    exact looked

/-! ## Agreement -/

lemma find_key {key : DevType × UInt8} (h : l.find key = some dev) :
    dev ∈ l.devices ∧ dev.key = key :=
  ⟨List.mem_of_find?_eq_some h, by simpa using List.find?_some h⟩

lemma find_of_mem (table : Table l) (device : dev ∈ l.devices) :
    l.find dev.key = some dev := by
  obtain ⟨front, back, split⟩ := List.append_of_mem device
  have keys := table.keys
  rw [split, List.map_append, List.map_cons] at keys
  have before := (List.nodup_append.mp keys).2.2
  refine List.find?_eq_some_iff_append.mpr ⟨by simp, front, back, split, fun other there => ?_⟩
  have differs := before other.key (List.mem_map_of_mem there) dev.key List.mem_cons_self
  simpa using differs

variable {l : Lists} {id : Text}

lemma sound_of_eightBits (bits : EightBits l id) (h : findDevAndPart l id = .ok found) :
    Denotes l id found.dev found.partNum.toNat found.part := by
  rw [findDevAndPart] at h
  cases search : l.devices.findSome? (foundIn id) with
  | some hit =>
    rw [search] at h
    obtain rfl := Except.ok.inj h
    obtain ⟨pos, first, counted, named⟩ := findName_some search
    have small := bits.name hit.dev pos first
    have position : hit.partNum.toNat = pos := by
      rw [counted, UInt8.toNat_ofNat']
      omega
    rw [position]
    exact .inl named
  | none =>
    rw [search] at h
    obtain ⟨nobody, unnamed⟩ := findName_none search
    obtain ⟨type, n, k, numbers, device, partNum, -, there⟩ := findNumbered_ok.mp h
    obtain ⟨onList, key⟩ := find_key device
    rcases bits.numbers nobody type n k numbers with ⟨nSmall, kSmall⟩ | missing
    · have position : found.partNum.toNat = k := by
        rw [partNum, UInt8.toNat_ofNat']
        omega
      have number : found.dev.id.num.toNat = n := by
        rw [(Prod.mk.inj key).2, UInt8.toNat_ofNat']
        omega
      rw [Nat.mod_eq_of_lt kSmall] at there
      refine .inr ⟨unnamed, onList, ?_, ?_⟩
      · rw [position]
        exact there
      · rw [position, number, (Prod.mk.inj key).1]
        exact numbers
    · have inside := (List.getElem?_eq_some_iff.mp there).1
      have outside := missing found.dev device
      omega

lemma found_of_denotes (table : Table l) {pos : Nat} {part : PartInfo}
    (denotes : Denotes l id dev pos part) : ∃ found, findDevAndPart l id = .ok found := by
  rw [findDevAndPart]
  cases search : l.devices.findSome? (foundIn id) with
  | some hit => exact ⟨hit, rfl⟩
  | none =>
    rcases denotes with named | ⟨-, numbered⟩
    · exact absurd named ((findName_none search).2 dev pos part)
    have inside := (List.getElem?_eq_some_iff.mp numbered.there).1
    have counted : pos % 256 < dev.parts.length := by omega
    refine ⟨⟨dev, UInt8.ofNat pos, dev.parts[pos % 256]⟩, ?_⟩
    refine findNumbered_ok.mpr ⟨_, _, pos, numbered.numbers, ?_, rfl, ?_, ?_⟩
    · rw [UInt8.ofNat_toNat]
      exact find_of_mem table numbered.device
    · rw [table.count dev numbered.device]
      exact counted
    · exact List.getElem?_eq_getElem counted

lemma position_of_sound (table : Table l) (sound : ∀ found, findDevAndPart l id = .ok found →
      Denotes l id found.dev found.partNum.toNat found.part) {pos : Nat}
    (first : firstNamed l id = some (dev, pos)) : pos < 256 := by
  cases search : l.devices.findSome? (foundIn id) with
  | none =>
    rw [(findName_none search).1] at first
    cases first
  | some hit =>
    obtain ⟨pos', first', counted, named⟩ := findName_some search
    obtain ⟨rfl, rfl⟩ := Prod.mk.inj (Option.some.inj (first'.symm.trans first))
    have returned : findDevAndPart l id = .ok hit := by rw [findDevAndPart, search]
    rcases sound hit returned with again | ⟨unnamed, -⟩
    · have inside := (List.getElem?_eq_some_iff.mp named.there).1
      have same := (List.getElem?_inj inside (table.distinct _ named.device)).mp
        (named.there.trans again.there.symm)
      have byte := hit.partNum.toNat_lt
      omega
    · exact absurd named (unnamed hit.dev pos' hit.part)

lemma eightBits_of_sound (table : Table l)
    (sound : ∀ found, findDevAndPart l id = .ok found →
      Denotes l id found.dev found.partNum.toNat found.part) : EightBits l id := by
  constructor
  · exact fun dev pos first => position_of_sound table sound first
  · intro nobody type n k numbers
    by_contra wrong
    push Not at wrong
    obtain ⟨large, dev, device, counted⟩ := wrong
    cases search : l.devices.findSome? (foundIn id) with
    | some hit =>
      obtain ⟨pos, first, -, -⟩ := findName_some search
      rw [nobody] at first
      cases first
    | none =>
      have onList := (find_key device).1
      have returned : findDevAndPart l id =
          .ok ⟨dev, UInt8.ofNat k, dev.parts[k % 256]⟩ := by
        rw [findDevAndPart, search]
        refine findNumbered_ok.mpr ⟨type, n, k, numbers, device, rfl, ?_, ?_⟩
        · rw [table.count dev onList]
          exact counted
        · exact List.getElem?_eq_getElem counted
      rcases sound _ returned with named | ⟨-, numbered⟩
      · exact (findName_none search).2 _ _ _ named
      obtain ⟨-, first, second⟩ := numbers.unique numbered.numbers
      have nSmall : n < 256 := by
        rw [first]
        exact UInt8.toNat_lt _
      have kSmall : k < 256 := by
        rw [second]
        exact UInt8.toNat_lt _
      exact absurd kSmall (not_lt.mpr (large nSmall))

/-! ## The commands act on what was found -/

variable {sys : Sys} {s s' : State} {outcome : Outcome}

lemma setenv_lists {name : Name} {value : Option Text} (h : setenv sys name value s = some s') :
    s'.lists = s.lists := by
  obtain ⟨r, -, rfl⟩ := Option.map_eq_some_iff.mp h
  rfl

lemma indexPartitions_lists (h : indexPartitions sys s = some s') :
    s'.lists = s.lists := by
  have two : ∀ {name name' : Name} {value value' : Option Text},
      (setenv sys name value s).bind (setenv sys name' value') = some s' →
        s'.lists = s.lists := by
    intro name name' value value' both
    obtain ⟨mid, first, second⟩ := Option.bind_eq_some_iff.mp both
    rw [setenv_lists second, setenv_lists first]
  rw [indexPartitions] at h
  cases current : s.lists.currentDev with
  | none =>
    rw [current] at h
    exact two h
  | some key =>
    rw [current] at h
    dsimp only at h
    cases known : s.lists.find key with
    | none => simp [known] at h
    | some dev =>
      rw [known] at h
      dsimp only at h
      rcases info : mtdPartInfo dev s.lists.currentPartnum with ⟨out, _ | part⟩
      · simp [info] at h
      · rw [info] at h
        exact two h

lemma currentSave_lists (h : currentSave sys s = some s') :
    ∃ last, s'.lists = { s.lists with lastPartition := last } := by
  rw [currentSave] at h
  cases current : s.lists.currentDev with
  | none =>
    rw [current] at h
    obtain ⟨mid, stored, indexed⟩ := Option.bind_eq_some_iff.mp h
    refine ⟨[], ?_⟩
    rw [indexPartitions_lists indexed, setenv_lists stored]
  | some key =>
    rw [current] at h
    obtain ⟨mid, stored, indexed⟩ := Option.bind_eq_some_iff.mp h
    refine ⟨partitionText key s.lists.currentPartnum, ?_⟩
    rw [indexPartitions_lists indexed, setenv_lists stored]

lemma finish_devices {e : Edit} (h : finish sys e s = some s') :
    s'.lists.devices = e.lists.devices := by
  rw [finish] at h
  cases save : e.save with
  | true =>
    rw [save] at h
    obtain ⟨last, lists⟩ := currentSave_lists h
    rw [lists]
  | false =>
    rw [save] at h
    rw [indexPartitions_lists h]

lemma generateMtdpartsSave_lists (h : generateMtdpartsSave sys s = some outcome) :
    outcome.state.lists = s.lists := by
  rw [generateMtdpartsSave] at h
  cases text : generateMtdparts
      (s.lists.devices.map fun dev => ⟨dev.id, dev.parts.map PartInfo.part⟩) mtdpartsMaxlen with
  | none =>
    rw [text] at h
    obtain ⟨s', stored, rfl⟩ := Option.map_eq_some_iff.mp h
    exact setenv_lists stored
  | some buf =>
    rw [text] at h
    obtain ⟨s', stored, rfl⟩ := Option.map_eq_some_iff.mp h
    exact setenv_lists stored

lemma doChpart_found (h : doChpart sys s (some id) = some outcome) :
    outcome.state = s ∨ ∃ found, findDevAndPart s.lists id = .ok found ∧
      outcome.state.lists.devices = s.lists.devices ∧
      outcome.state.lists.currentDev = some found.dev.key ∧
      outcome.state.lists.currentPartnum = found.partNum := by
  rw [doChpart] at h
  cases search : findDevAndPart s.lists id with
  | error e =>
    rw [search] at h
    cases h
    exact .inl rfl
  | ok found =>
    rw [search] at h
    obtain ⟨s', saved, rfl⟩ := Option.map_eq_some_iff.mp h
    obtain ⟨last, lists⟩ := currentSave_lists saved
    refine .inr ⟨found, rfl, ?_⟩
    rw [lists]
    exact ⟨rfl, rfl, rfl⟩

lemma deletePartition_found (h : deletePartition sys s id = some outcome) :
    outcome.state = s ∨ ∃ found, findDevAndPart s.lists id = .ok found ∧
      outcome.state.lists.devices = (partDel found.dev found.part s.lists).lists.devices := by
  rw [deletePartition] at h
  cases search : findDevAndPart s.lists id with
  | error e =>
    rw [search] at h
    cases h
    exact .inl rfl
  | ok found =>
    rw [search] at h
    obtain ⟨s', finished, saved⟩ := Option.bind_eq_some_iff.mp h
    refine .inr ⟨found, rfl, ?_⟩
    rw [generateMtdpartsSave_lists saved]
    exact finish_devices finished

/-- The search agrees with the identifier exactly where eight bits are enough for it. -/
theorem agrees_iff_eightBits (table : Table l) : Agrees l id ↔ EightBits l id := by
  constructor
  · intro agrees
    exact eightBits_of_sound table agrees.sound
  · intro bits
    refine ⟨fun found => sound_of_eightBits bits, fun dev pos part => found_of_denotes table,
      ?_, ?_⟩
    · rintro sys s outcome rfl h
      rcases doChpart_found h with same | ⟨found, search, devices, dev, partNum⟩
      · exact Or.inl same
      · exact Or.inr ⟨found.dev, found.partNum.toNat, found.part, sound_of_eightBits bits search,
          devices, dev, congrArg UInt8.toNat partNum⟩
    · rintro sys s outcome rfl h
      rcases deletePartition_found h with same | ⟨found, search, devices⟩
      · exact Or.inl same
      · exact Or.inr ⟨found.dev, found.partNum.toNat, found.part, sound_of_eightBits bits search,
          devices⟩

/-! ## A table with one partition -/

def nand0 : MtdId := ⟨.nand, 0, 0x100000, [102]⟩
def onlyPart : PartInfo := ⟨0, ⟨[112], by decide⟩, false, 0x20000, 0, 0⟩
def nandDev : MtdDevice := ⟨nand0, 1, [onlyPart]⟩
def onePart : Lists := ⟨[nandDev], none, 0, []⟩

lemma onePart_table : Table onePart where
  keys := List.nodup_singleton _
  count dev device := by
    obtain rfl := List.mem_singleton.mp device
    rfl
  distinct dev device := by
    obtain rfl := List.mem_singleton.mp device
    exact List.nodup_singleton _

def first : Text := [110, 97, 110, 100, 48, 44, 48]

theorem agrees_first : Agrees onePart first := by
  have numbers : Numbers first .nand 0 0 :=
    Reads.numbers (p := [48, 44, 48]) (q := [48]) ⟨rfl, rfl, rfl, List.cons_ne_nil _ _, rfl⟩
  refine (agrees_iff_eightBits onePart_table).mpr ⟨?_, ?_⟩
  · intro dev pos found
    have nobody : firstNamed onePart first = none := by decide
    rw [nobody] at found
    cases found
  · rintro - type n k other
    obtain ⟨-, rfl, rfl⟩ := numbers.unique other
    exact Or.inl ⟨by decide, by decide⟩

def faraway : Text := [110, 97, 110, 100, 50, 53, 54, 44, 48]

/-- There is no device nand256, and the partition of nand0 is found. -/
theorem faraway_not_agrees :
    findDevAndPart onePart faraway = .ok ⟨nandDev, 0, onlyPart⟩ ∧ ¬ Agrees onePart faraway := by
  have numbers : Numbers faraway .nand 256 0 :=
    Reads.numbers (p := [50, 53, 54, 44, 48]) (q := [48])
      ⟨rfl, rfl, rfl, List.cons_ne_nil _ _, rfl⟩
  refine ⟨rfl, fun agrees => ?_⟩
  have bits := eightBits_of_sound onePart_table agrees.sound
  rcases bits.numbers rfl .nand 256 0 numbers with ⟨small, -⟩ | missing
  · exact absurd small (by decide)
  · exact absurd (missing nandDev rfl) (by decide)

end FindPart
