import UBoot.Disk.PartDos

/-!
# The partitions that are printed are those that are found (disk/part_dos.c)

Both functions number the partitions on their own, from a count that goes down the chain of tables.
On a disk whose tables are in order they agree, number by number. Sectors are shown with a sign and
reported without one.
-/

namespace PartDosList

open ByteMemory FuelRecursion PartDos PartDosEnds
open Relation (ReflTransGen)

variable {d : BlockDev} {t : Table} {buffer : Mem}

structure TableRead (d : BlockDev) (t : Table) (buffer : Mem) : Prop where
  read : d.blockRead t.sector = some buffer
  type : testBlockType buffer = .mbr
  single : (extendedEntries buffer).length ≤ 1
  boot : ∀ i ∈ entries, bootInd buffer i = 0 ∨ bootInd buffer i = 0x80

/-- The MBR and the tables behind it are in order, and none leads back to itself. -/
structure WellFormed (d : BlockDev) : Prop where
  table : ∀ t, ReflTransGen (Calls (printed d)) mbr t → ∃ buffer, TableRead d t buffer
  acyclic : NoReturn (printed d) mbr

def Shown (lines : List Line) (num : Nat) (start size : Int32) : Prop :=
  ∃ type, Line.part num start size type false ∈ lines

/-- `which_part` is an int. The count starts at 1, so that what is below 1 is as good as 0. -/
def getPartitionInfoInt (d : BlockDev) (part : Int) (fuel : Nat) : Option (Option Info) :=
  getPartitionInfoDos d part.toNat fuel

def Agrees (lines : List Line) (num : Nat) (answer : Option Info) : Prop :=
  ∀ start size, Shown lines num start size ↔
    ∃ info, answer = some info ∧ info.start.toInt32 = start ∧ info.size.toInt32 = size

def Listed (lines : List Line) (part start size : Int) : Prop :=
  ∃ num : Nat, (num : Int) = part ∧
    ∃ s z : Int32, Shown lines num s z ∧ s.toInt = start ∧ z.toInt = size

def Reported (answer : Option Info) (start size : Int) : Prop :=
  ∃ info, answer = some info ∧ (info.start.toNat : Int) = start ∧ (info.size.toNat : Int) = size

/-- Both functions return, and the non-extended partitions that are listed are those that are found,
with the same start and the same size; for all other numbers nothing is found. -/
def ListedAreFound (d : BlockDev) : Prop :=
  ∃ lines, (∃ fuel, printPartDos d fuel = some lines) ∧
    ∀ part : Int, ∃ answer, (∃ fuel, getPartitionInfoInt d part fuel = some answer) ∧
      ∀ start size : Int, Listed lines part start size ↔ Reported answer start size

/-- A partition in the table, which is not extended: its first sector and its sectors. -/
def PartitionIn (d : BlockDev) (t : Table) (start size : UInt32) : Prop :=
  ∃ buffer, d.blockRead t.sector = some buffer ∧ ∃ i ∈ entries, sysInd buffer i ≠ 0 ∧
    isExtended (sysInd buffer i) = false ∧ t.sector + start4 buffer i = start ∧
    size4 buffer i = size

def OnDisk (d : BlockDev) (t : Table) (start size : UInt32) : Prop :=
  ∃ t', ReflTransGen (Calls (printed d)) t t' ∧ PartitionIn d t' start size

/-- The partitions begin below sector 2^31 and have fewer sectors than that. -/
def BelowSign (d : BlockDev) : Prop :=
  ∀ start size, OnDisk d mbr start size → start.toNat < 2147483648 ∧ size.toNat < 2147483648

lemma shown_nil (num : Nat) (start size : Int32) : ¬ Shown [] num start size := by
  rintro ⟨type, mem⟩
  exact List.not_mem_nil mem

lemma shown_append (first rest : List Line) (num : Nat) (start size : Int32) :
    Shown (first ++ rest) num start size ↔
      Shown first num start size ∨ Shown rest num start size := by
  constructor
  · rintro ⟨type, mem⟩
    rcases List.mem_append.mp mem with mem | mem
    · exact .inl ⟨type, mem⟩
    · exact .inr ⟨type, mem⟩
  · rintro (⟨type, mem⟩ | ⟨type, mem⟩)
    · exact ⟨type, List.mem_append_left rest mem⟩
    · exact ⟨type, List.mem_append_right first mem⟩

lemma shown_printOnePart (buffer : Mem) (i : Nat) (t : Table) (partNum : Nat) (lines : List Line)
    (num : Nat) (start size : Int32) :
    Shown (printOnePart buffer i t partNum :: lines) num start size ↔
      (isExtended (sysInd buffer i) = false ∧ partNum = num ∧
        (t.sector + start4 buffer i).toInt32 = start ∧ (size4 buffer i).toInt32 = size) ∨
      Shown lines num start size := by
  constructor
  · rintro ⟨type, mem⟩
    rcases List.mem_cons.mp mem with same | mem
    · rw [printOnePart, Line.part.injEq] at same
      obtain ⟨numEq, startEq, sizeEq, -, extendedEq⟩ := same
      exact .inl ⟨extendedEq.symm, numEq.symm, startEq.symm, sizeEq.symm⟩
    · exact .inr ⟨type, mem⟩
  · rintro (⟨plain, rfl, rfl, rfl⟩ | ⟨type, mem⟩)
    · refine ⟨sysInd buffer i, ?_⟩
      rw [printOnePart, plain]
      exact List.mem_cons_self
    · exact ⟨type, List.mem_cons_of_mem _ mem⟩

variable {i partNum num : Nat} {lines : List Line}

def counted (t : Table) (buffer : Mem) (i partNum : Nat) : Nat :=
  if numbered t buffer i then partNum + 1 else partNum

lemma counted_ge (t : Table) (buffer : Mem) (i partNum : Nat) :
    partNum ≤ counted t buffer i partNum := by
  rw [counted]
  split_ifs
  · exact Nat.le_succ partNum
  · exact le_rfl

lemma counted_of_plain (t : Table) (used : sysInd buffer i ≠ 0)
    (plain : isExtended (sysInd buffer i) = false) (partNum : Nat) :
    counted t buffer i partNum = partNum + 1 := by
  rw [counted, if_pos]
  simp [numbered, used, plain]

lemma shown_entries_cons (t : Table) (buffer : Mem) (i : Nat) (is : List Nat) (partNum : Nat)
    (num : Nat) (start size : Int32) :
    Shown (printEntries t buffer (i :: is) partNum).1 num start size ↔
      (sysInd buffer i ≠ 0 ∧ isExtended (sysInd buffer i) = false ∧ partNum = num ∧
        (t.sector + start4 buffer i).toInt32 = start ∧ (size4 buffer i).toInt32 = size) ∨
      Shown (printEntries t buffer is (counted t buffer i partNum)).1 num start size := by
  rw [printEntries, counted]
  by_cases listed : sysInd buffer i ≠ 0 ∧ (t.sector = 0 ∨ isExtended (sysInd buffer i) = false)
  · rw [if_pos listed, shown_printOnePart]
    simp only [listed.1, ne_eq, not_false_eq_true, true_and]
  rw [if_neg listed]
  constructor
  · exact Or.inr
  · rintro (⟨used, plain, -⟩ | shown)
    · exact absurd ⟨used, .inr plain⟩ listed
    · exact shown

lemma printEntries_cons_count (t : Table) (buffer : Mem) (i : Nat) (is : List Nat)
    (partNum : Nat) :
    (printEntries t buffer (i :: is) partNum).2 =
      (printEntries t buffer is (counted t buffer i partNum)).2 := by
  rw [printEntries, counted]
  by_cases listed : sysInd buffer i ≠ 0 ∧ (t.sector = 0 ∨ isExtended (sysInd buffer i) = false)
  · rw [if_pos listed]
  · rw [if_neg listed]

lemma printEntries_count (t : Table) (buffer : Mem) (is : List Nat) (partNum : Nat) :
    partNum ≤ (printEntries t buffer is partNum).2 := by
  induction is generalizing partNum with
  | nil => exact le_rfl
  | cons i is ih =>
    rw [printEntries_cons_count]
    exact (counted_ge t buffer i partNum).trans (ih _)

lemma shown_entries_range (t : Table) (buffer : Mem) (is : List Nat) {start size : Int32}
    (shown : Shown (printEntries t buffer is partNum).1 num start size) :
    partNum ≤ num ∧ num < (printEntries t buffer is partNum).2 := by
  induction is generalizing partNum with
  | nil => exact absurd shown (shown_nil num start size)
  | cons i is ih =>
    rw [printEntries_cons_count]
    rcases (shown_entries_cons t buffer i is partNum num start size).mp shown with
      ⟨used, plain, rfl, -⟩ | shown
    · refine ⟨le_rfl, ?_⟩
      rw [counted_of_plain t used plain]
      exact printEntries_count t buffer is (partNum + 1)
    · obtain ⟨above, below⟩ := ih shown
      exact ⟨(counted_ge t buffer i partNum).trans above, below⟩

lemma shown_entries_iff (t : Table) (buffer : Mem) (is : List Nat) (partNum : Nat)
    (start size : Int32) :
    (∃ num, Shown (printEntries t buffer is partNum).1 num start size) ↔
      ∃ i ∈ is, sysInd buffer i ≠ 0 ∧ isExtended (sysInd buffer i) = false ∧
        (t.sector + start4 buffer i).toInt32 = start ∧ (size4 buffer i).toInt32 = size := by
  induction is generalizing partNum with
  | nil =>
    constructor
    · rintro ⟨num, shown⟩
      exact absurd shown (shown_nil num start size)
    · rintro ⟨i, mem, -⟩
      exact absurd mem List.not_mem_nil
  | cons i is ih =>
    simp only [shown_entries_cons, exists_or, List.exists_mem_cons_iff, ih]
    refine or_congr_left ⟨?_, ?_⟩
    · rintro ⟨num, used, plain, -, same⟩
      exact ⟨used, plain, same⟩
    · rintro ⟨used, plain, same⟩
      exact ⟨partNum, used, plain, rfl, same⟩

def Searched (lines : List Line × Nat) (num : Nat) : Info ⊕ Nat → Prop
  | .inl info => Agrees lines.1 num (some info) ∧ num < lines.2
  | .inr partNum => Agrees lines.1 num none ∧ partNum = lines.2

lemma Searched.congr {lines lines' : List Line × Nat} {answer : Info ⊕ Nat}
    (rest : Searched lines' num answer)
    (same : ∀ start size, Shown lines.1 num start size ↔ Shown lines'.1 num start size)
    (count : lines.2 = lines'.2) : Searched lines num answer := by
  cases answer with
  | inl info =>
    exact ⟨fun start size => (same start size).trans (rest.1 start size), count ▸ rest.2⟩
  | inr partNum =>
    exact ⟨fun start size => (same start size).trans (rest.1 start size), count ▸ rest.2⟩

lemma agrees_none :
    Agrees lines num none ↔ ∀ start size, ¬ Shown lines num start size := by
  simp [Agrees]

lemma boot_passes (boot : bootInd buffer i = 0 ∨ bootInd buffer i = 0x80) :
    bootInd buffer i &&& 0x7f = 0 := by
  rcases boot with boot | boot
  · rw [boot]
    rfl
  · rw [boot]
    rfl

lemma infoEntries_searched (d : BlockDev) (t : Table) (buffer : Mem) (num : Nat) (is : List Nat)
    (boot : ∀ i ∈ is, bootInd buffer i = 0 ∨ bootInd buffer i = 0x80) (partNum : Nat) :
    Searched (printEntries t buffer is partNum) num (infoEntries d t buffer num is partNum) := by
  induction is generalizing partNum with
  | nil => exact ⟨agrees_none.mpr (shown_nil num), rfl⟩
  | cons i is ih =>
    obtain ⟨bootHere, bootRest⟩ := List.forall_mem_cons.mp boot
    rw [infoEntries]
    by_cases found : bootInd buffer i &&& 0x7f = 0 ∧ sysInd buffer i ≠ 0 ∧ partNum = num ∧
        isExtended (sysInd buffer i) = false
    · rw [if_pos found]
      obtain ⟨-, used, rfl, plain⟩ := found
      have behind : counted t buffer i partNum = partNum + 1 :=
        counted_of_plain t used plain partNum
      refine ⟨fun start size => ?_, ?_⟩
      · rw [shown_entries_cons, behind]
        constructor
        · rintro (⟨-, -, -, startEq, sizeEq⟩ | shown)
          · exact ⟨_, rfl, startEq, sizeEq⟩
          · exact absurd (shown_entries_range t buffer is shown).1 (Nat.not_succ_le_self partNum)
        · rintro ⟨info, same, rfl, rfl⟩
          cases same
          exact .inl ⟨used, plain, rfl, rfl, rfl⟩
      · rw [printEntries_cons_count, behind]
        exact printEntries_count t buffer is (partNum + 1)
    · rw [if_neg found]
      have skipped (start size : Int32) :
          Shown (printEntries t buffer (i :: is) partNum).1 num start size ↔
            Shown (printEntries t buffer is (counted t buffer i partNum)).1 num start size := by
        rw [shown_entries_cons]
        constructor
        · rintro (⟨used, plain, same, -⟩ | shown)
          · exact absurd ⟨boot_passes bootHere, used, same, plain⟩ found
          · exact shown
        · exact Or.inr
      exact (ih bootRest (counted t buffer i partNum)).congr skipped
        (printEntries_cons_count t buffer i is partNum)

lemma magic_of_mbr (type : testBlockType buffer = .mbr) : magic buffer = true := by
  cases signature : magic buffer with
  | false => simp [testBlockType, signature] at type
  | true => rfl

lemma print_table (ok : TableRead d t buffer) (fuel partNum : Nat) :
    printPartitionExtended d (fuel + 1) (t, partNum) =
      ((extendedEntries buffer).mapM fun i => printPartitionExtended d fuel
        (extendedTable t buffer i, (printEntries t buffer entries partNum).2)).map
          fun lines => (printEntries t buffer entries partNum).1 ++ lines.flatten := by
  rw [printPartitionExtended, ok.read]
  dsimp only
  rw [ok.type]

lemma first_extended (buffer : Mem) :
    (entries.find? fun i => isExtended (sysInd buffer i)) = (extendedEntries buffer).head? :=
  (List.head?_filter ..).symm

lemma info_found (ok : TableRead d t buffer) {fuel : Nat} {info : Info}
    (found : infoEntries d t buffer num entries partNum = .inl info) :
    getPartitionInfoExtended d num (fuel + 1) (t, partNum) = some (some info) := by
  rw [getPartitionInfoExtended, ok.read]
  dsimp only
  rw [if_neg (not_not.mpr (magic_of_mbr ok.type)), found]

lemma info_last (ok : TableRead d t buffer) {fuel count : Nat}
    (found : infoEntries d t buffer num entries partNum = .inr count)
    (last : extendedEntries buffer = []) :
    getPartitionInfoExtended d num (fuel + 1) (t, partNum) = some none := by
  rw [getPartitionInfoExtended, ok.read]
  dsimp only
  rw [if_neg (not_not.mpr (magic_of_mbr ok.type)), found, first_extended, last, List.head?_nil]

lemma info_next (ok : TableRead d t buffer) {fuel count : Nat}
    (found : infoEntries d t buffer num entries partNum = .inr count)
    (next : extendedEntries buffer = [i]) :
    getPartitionInfoExtended d num (fuel + 1) (t, partNum) =
      getPartitionInfoExtended d num fuel (extendedTable t buffer i, count) := by
  rw [getPartitionInfoExtended, ok.read]
  dsimp only
  rw [if_neg (not_not.mpr (magic_of_mbr ok.type)), found, first_extended, next, List.head?_cons]

lemma onDisk_iff (t : Table) (start size : UInt32) :
    OnDisk d t start size ↔
      PartitionIn d t start size ∨ ∃ t' ∈ printed d t, OnDisk d t' start size := by
  constructor
  · rintro ⟨t', path, there⟩
    rcases path.cases_head with rfl | ⟨next, called, path⟩
    · exact .inl there
    · exact .inr ⟨next, called, t', path, there⟩
  · rintro (here | ⟨next, called, t', path, there⟩)
    · exact ⟨t, .refl, here⟩
    · exact ⟨t', .head called path, there⟩

lemma printed_table (ok : TableRead d t buffer) :
    printed d t = (extendedEntries buffer).map (extendedTable t buffer) := by
  rw [printed, ok.read]
  dsimp only
  rw [if_pos ok.type]

lemma shown_table_iff (ok : TableRead d t buffer) (partNum : Nat) (start size : Int32) :
    (∃ num, Shown (printEntries t buffer entries partNum).1 num start size) ↔
      ∃ s z, PartitionIn d t s z ∧ s.toInt32 = start ∧ z.toInt32 = size := by
  rw [shown_entries_iff]
  constructor
  · rintro ⟨i, mem, used, plain, startEq, sizeEq⟩
    exact ⟨_, _, ⟨buffer, ok.read, i, mem, used, plain, rfl, rfl⟩, startEq, sizeEq⟩
  · rintro ⟨s, z, ⟨other, read, i, mem, used, plain, rfl, rfl⟩, startEq, sizeEq⟩
    obtain rfl := Option.some.inj (ok.read.symm.trans read)
    exact ⟨i, mem, used, plain, startEq, sizeEq⟩

structure Matches (d : BlockDev) (call : Table × Nat) (lines : List Line) : Prop where
  print : ∃ fuel, printPartitionExtended d fuel call = some lines
  range : ∀ num start size, Shown lines num start size → call.2 ≤ num
  info : ∀ num, ∃ answer, (∃ fuel, getPartitionInfoExtended d num fuel call = some answer) ∧
    Agrees lines num answer
  listed : ∀ start size, (∃ num, Shown lines num start size) ↔
    ∃ s z, OnDisk d call.1 s z ∧ s.toInt32 = start ∧ z.toInt32 = size

lemma matches_last (ok : TableRead d t buffer) (last : extendedEntries buffer = [])
    (partNum : Nat) : Matches d (t, partNum) (printEntries t buffer entries partNum).1 where
  print := by
    refine ⟨1, ?_⟩
    rw [print_table ok, last]
    simp
  range num start size shown := (shown_entries_range t buffer entries shown).1
  info num := by
    have searched := infoEntries_searched d t buffer num entries ok.boot partNum
    cases found : infoEntries d t buffer num entries partNum with
    | inl info =>
      rw [found] at searched
      exact ⟨some info, ⟨1, info_found ok found⟩, searched.1⟩
    | inr count =>
      rw [found] at searched
      exact ⟨none, ⟨1, info_last ok found last⟩, searched.1⟩
  listed start size := by
    have only (s z : UInt32) : OnDisk d t s z ↔ PartitionIn d t s z := by
      rw [onDisk_iff, printed_table ok, last]
      simp
    simp only [only]
    exact shown_table_iff ok partNum start size

lemma matches_table (ok : TableRead d t buffer) (next : extendedEntries buffer = [i])
    (rest : Matches d (extendedTable t buffer i, (printEntries t buffer entries partNum).2) lines) :
    Matches d (t, partNum) ((printEntries t buffer entries partNum).1 ++ lines) where
  print := by
    obtain ⟨fuel, printed⟩ := rest.print
    refine ⟨fuel + 1, ?_⟩
    rw [print_table ok, next]
    simp [printed]
  range num start size shown := by
    rcases (shown_append _ _ num start size).mp shown with shown | shown
    · exact (shown_entries_range t buffer entries shown).1
    · exact (printEntries_count t buffer entries partNum).trans (rest.range num start size shown)
  info num := by
    have searched := infoEntries_searched d t buffer num entries ok.boot partNum
    cases found : infoEntries d t buffer num entries partNum with
    | inl info =>
      rw [found] at searched
      obtain ⟨agrees, below⟩ := searched
      refine ⟨some info, ⟨1, info_found ok found⟩, fun start size => ?_⟩
      rw [shown_append, agrees]
      -- What is behind the table has numbers above those of its own lines.
      refine or_iff_left fun shown => ?_
      exact absurd below (not_lt.mpr (rest.range num start size shown))
    | inr count =>
      rw [found] at searched
      obtain ⟨nothing, rfl⟩ := searched
      obtain ⟨answer, ⟨fuel, answered⟩, agrees⟩ := rest.info num
      refine ⟨answer, ⟨fuel + 1, ?_⟩, fun start size => ?_⟩
      · rw [info_next ok found next]
        exact answered
      · rw [shown_append, agrees]
        exact or_iff_right (agrees_none.mp nothing start size)
  listed start size := by
    have below (s z : UInt32) : OnDisk d t s z ↔
        PartitionIn d t s z ∨ OnDisk d (extendedTable t buffer i) s z := by
      rw [onDisk_iff, printed_table ok, next]
      simp
    simp only [below, or_and_right, exists_or, shown_append]
    exact or_congr (shown_table_iff ok partNum start size) (rest.listed start size)

lemma last_or_next (ok : TableRead d t buffer) :
    extendedEntries buffer = [] ∨ ∃ i, extendedEntries buffer = [i] := by
  have single := ok.single
  cases extended : extendedEntries buffer with
  | nil => exact .inl rfl
  | cons i rest =>
    rw [extended, List.length_cons] at single
    have none : rest = [] := List.eq_nil_of_length_eq_zero (by omega)
    exact .inr ⟨i, by rw [none]⟩

lemma printed_of_extended (ok : TableRead d t buffer) (mem : i ∈ extendedEntries buffer) :
    extendedTable t buffer i ∈ printed d t := by
  rw [printed_table ok]
  exact List.mem_map_of_mem mem

lemma matches_chain (ends : Ends (printed d) t)
    (ordered : ∀ t', ReflTransGen (Calls (printed d)) t t' → ∃ buffer, TableRead d t' buffer)
    (partNum : Nat) : ∃ lines, Matches d (t, partNum) lines := by
  induction ends generalizing partNum with
  | intro t _ ih =>
    obtain ⟨buffer, ok⟩ := ordered t .refl
    rcases last_or_next ok with last | ⟨i, next⟩
    · exact ⟨_, matches_last ok last partNum⟩
    have called : Calls (printed d) t (extendedTable t buffer i) :=
      printed_of_extended ok (next ▸ List.mem_cons_self)
    obtain ⟨lines, rest⟩ := ih _ called (fun t' path => ordered t' (.head called path))
      (printEntries t buffer entries partNum).2
    exact ⟨_, matches_table ok next rest⟩

lemma shown_heading (lines : List Line) (num : Nat) (start size : Int32) :
    Shown (.heading :: lines) num start size ↔ Shown lines num start size := by
  constructor
  · rintro ⟨type, mem⟩
    rcases List.mem_cons.mp mem with same | mem
    · exact Line.noConfusion same
    · exact ⟨type, mem⟩
  · rintro ⟨type, mem⟩
    exact ⟨type, List.mem_cons_of_mem _ mem⟩

/-! ## One result for all fuel -/

lemma print_more (fuel : Nat) (call : Table × Nat) (lines : List Line)
    (result : printPartitionExtended d fuel call = some lines) :
    printPartitionExtended d (fuel + 1) call = some lines := by
  induction fuel generalizing call lines with
  | zero => cases result
  | succ fuel ih =>
    obtain ⟨t, partNum⟩ := call
    rw [printPartitionExtended] at result ⊢
    cases read : d.blockRead t.sector with
    | none => rwa [read] at result
    | some buffer =>
      rw [read] at result
      dsimp only at result ⊢
      cases type : testBlockType buffer with
      | noSignature => rwa [type] at result
      | pbr => rwa [type] at result
      | mbr =>
        rw [type] at result
        dsimp only at result ⊢
        obtain ⟨below, calls, rfl⟩ := Option.map_eq_some_iff.mp result
        rw [Guarded.mapM_some_of_some _ _ (fun i below => ih _ below) calls, Option.map_some]

lemma info_more (fuel : Nat) (call : Table × Nat) (answer : Option Info)
    (result : getPartitionInfoExtended d num fuel call = some answer) :
    getPartitionInfoExtended d num (fuel + 1) call = some answer := by
  induction fuel generalizing call answer with
  | zero => cases result
  | succ fuel ih =>
    obtain ⟨t, partNum⟩ := call
    rw [getPartitionInfoExtended] at result ⊢
    cases read : d.blockRead t.sector with
    | none => rwa [read] at result
    | some buffer =>
      rw [read] at result
      dsimp only at result ⊢
      by_cases signature : ¬ magic buffer
      · rwa [if_pos signature] at result ⊢
      rw [if_neg signature] at result ⊢
      cases found : infoEntries d t buffer num entries partNum with
      | inl info => rwa [found] at result
      | inr count =>
        rw [found] at result
        dsimp only at result ⊢
        cases next : entries.find? fun i => isExtended (sysInd buffer i) with
        | none => rwa [next] at result
        | some i =>
          rw [next] at result
          exact ih _ _ result

/-! ## The sign -/

lemma toInt_toInt32 (x : UInt32) : x.toInt32.toInt = (x.toNat : Int) ↔ x.toNat < 2147483648 := by
  have signed : x.toInt32.toInt = x.toBitVec.toInt := rfl
  have value : x.toBitVec.toNat = x.toNat := rfl
  have := x.toNat_lt
  rw [signed, BitVec.toInt_eq_toNat_cond, value]
  split <;> omega

lemma toInt32_inj {x y : UInt32} (same : x.toInt32 = y.toInt32) : x = y :=
  congrArg Int32.toUInt32 same

lemma listed_heading {lines : List Line} (range : ∀ num start size, Shown lines num start size →
      1 ≤ num) (part start size : Int) :
    Listed (.heading :: lines) part start size ↔
      ∃ s z, Shown lines part.toNat s z ∧ s.toInt = start ∧ z.toInt = size := by
  simp only [Listed, shown_heading]
  constructor
  · rintro ⟨num, rfl, shown⟩
    exact shown
  · rintro ⟨s, z, shown, same⟩
    have positive := range _ _ _ shown
    exact ⟨part.toNat, by omega, s, z, shown, same⟩

lemma matches_disk (wellFormed : WellFormed d) : ∃ lines, Matches d (mbr, 1) lines :=
  matches_chain ((ends_iff_noReturn mbr).mpr wellFormed.acyclic) wellFormed.table 1

lemma belowSign_of_found (wellFormed : WellFormed d) (right : ListedAreFound d) :
    BelowSign d := by
  intro s z there
  obtain ⟨lines, both⟩ := matches_disk wellFormed
  obtain ⟨lines', ⟨fuel, print⟩, found⟩ := right
  obtain ⟨below, print', rfl⟩ := Option.map_eq_some_iff.mp print
  obtain ⟨fuel', again⟩ := both.print
  obtain rfl : below = lines := result_unique print_more print' again
  obtain ⟨num, shown⟩ := (both.listed s.toInt32 z.toInt32).mpr ⟨s, z, there, rfl, rfl⟩
  obtain ⟨answer, ⟨fuel, answered⟩, same⟩ := found num
  obtain ⟨answer', ⟨fuel', answered'⟩, agrees⟩ := both.info num
  obtain rfl := result_unique info_more answered answered'
  obtain ⟨info, rfl, start, size⟩ := (agrees s.toInt32 z.toInt32).mp shown
  have listed : Listed (.heading :: below) num s.toInt32.toInt z.toInt32.toInt := by
    rw [listed_heading both.range]
    exact ⟨_, _, shown, rfl, rfl⟩
  obtain ⟨info', this, start', size'⟩ := (same _ _).mp listed
  obtain rfl := Option.some.inj this
  rw [toInt32_inj start] at start'
  rw [toInt32_inj size] at size'
  exact ⟨(toInt_toInt32 s).mp start'.symm, (toInt_toInt32 z).mp size'.symm⟩

lemma found_of_belowSign (wellFormed : WellFormed d) (below : BelowSign d) :
    ListedAreFound d := by
  obtain ⟨lines, both⟩ := matches_disk wellFormed
  obtain ⟨fuel, print⟩ := both.print
  refine ⟨.heading :: lines, ⟨fuel, Option.map_eq_some_iff.mpr ⟨lines, print, rfl⟩⟩, fun part => ?_⟩
  obtain ⟨answer, found, agrees⟩ := both.info part.toNat
  refine ⟨answer, found, fun start size => ?_⟩
  have values {info : Info} (this : answer = some info) :
      info.start.toInt32.toInt = info.start.toNat ∧ info.size.toInt32.toInt = info.size.toNat := by
    obtain ⟨s, z, there, start, size⟩ := (both.listed info.start.toInt32 info.size.toInt32).mp
      ⟨_, (agrees _ _).mpr ⟨info, this, rfl, rfl⟩⟩
    rw [toInt32_inj start, toInt32_inj size] at there
    obtain ⟨low, short⟩ := below _ _ there
    exact ⟨(toInt_toInt32 _).mpr low, (toInt_toInt32 _).mpr short⟩
  rw [listed_heading both.range]
  constructor
  · rintro ⟨s, z, shown, rfl, rfl⟩
    obtain ⟨info, this, rfl, rfl⟩ := (agrees s z).mp shown
    exact ⟨info, this, (values this).1.symm, (values this).2.symm⟩
  · rintro ⟨info, this, rfl, rfl⟩
    exact ⟨_, _, (agrees _ _).mpr ⟨info, this, rfl, rfl⟩, values this⟩

/-- On a disk in order the partitions that are listed are those that are found exactly if none has a
number that is printed with a minus. -/
theorem listed_are_found_iff (wellFormed : WellFormed d) : ListedAreFound d ↔ BelowSign d :=
  ⟨belowSign_of_found wellFormed, found_of_belowSign wellFormed⟩

def logical : BlockDev where
  ifType := .usb
  dev := 0
  lba := 64
  blockRead sector := some fun a =>
    if a = dosPartMagicOffset then 0x55
    else if a = dosPartMagicOffset + 1 then 0xaa
    else if a = dosPartTblOffset + 4 then 0x83
    else if a = dosPartTblOffset + 8 then 1
    else if a = dosPartTblOffset + 12 then 6
    else if a = dosPartTblOffset + 20 ∧ sector = 0 then 0x5
    else if a = dosPartTblOffset + 24 ∧ sector = 0 then 8
    else 0

lemma logical_reached {t : Table} (path : ReflTransGen (Calls (printed logical)) mbr t) :
    t = mbr ∨ t = ⟨8, 8⟩ := by
  induction path with
  | refl => exact .inl rfl
  | tail _ last ih =>
    rcases ih with rfl | rfl
    · have first : printed logical mbr = [⟨8, 8⟩] := by decide
      rw [Calls, first] at last
      exact .inr (List.mem_singleton.mp last)
    · have behind : printed logical ⟨8, 8⟩ = [] := by decide
      rw [Calls, behind] at last
      exact absurd last List.not_mem_nil

lemma logical_wellFormed : WellFormed logical where
  table t path := by
    rcases logical_reached path with rfl | rfl
    · exact ⟨_, rfl, by decide, by decide, by decide⟩
    · exact ⟨_, rfl, by decide, by decide, by decide⟩
  acyclic := by
    rw [← ends_iff_noReturn]
    have first : printed logical mbr = [⟨8, 8⟩] := by decide
    have behind : printed logical ⟨8, 8⟩ = [] := by decide
    refine (ends_iff mbr).mpr ?_
    rw [first, List.forall_mem_singleton, ends_iff, behind]
    exact fun t mem => absurd mem List.not_mem_nil

lemma onDisk_logical {start size : UInt32} (there : OnDisk logical mbr start size) :
    start.toNat < 2147483648 ∧ size.toNat < 2147483648 := by
  obtain ⟨t, path, buffer, read, i, mem, -, -, rfl, rfl⟩ := there
  rcases logical_reached path with rfl | rfl
  · cases read
    revert i
    decide
  · cases read
    revert i
    decide

theorem logical_listed_are_found : ListedAreFound logical :=
  (listed_are_found_iff logical_wellFormed).mpr fun _ _ => onDisk_logical

example : printPartDos logical 2 = some [.heading, .part 1 1 6 0x83 false, .part 2 8 0 0x5 true,
    .part 5 9 6 0x83 false] := by decide

/-- One partition of 2^31 sectors. -/
def terabyte : BlockDev where
  ifType := .usb
  dev := 0
  lba := 0x80000001
  blockRead _ := some fun a =>
    if a = dosPartMagicOffset then 0x55
    else if a = dosPartMagicOffset + 1 then 0xaa
    else if a = dosPartTblOffset + 4 then 0x83
    else if a = dosPartTblOffset + 8 then 1
    else if a = dosPartTblOffset + 15 then 0x80
    else 0

lemma terabyte_wellFormed : WellFormed terabyte where
  table t path := by
    have none : printed terabyte mbr = [] := by decide
    rcases path.cases_head with rfl | ⟨next, called, -⟩
    · exact ⟨_, rfl, by decide, by decide, by decide⟩
    · rw [Calls, none] at called
      exact absurd called List.not_mem_nil
  acyclic := by
    have none : printed terabyte mbr = [] := by decide
    rw [← ends_iff_noReturn, ends_iff, none]
    exact fun t mem => absurd mem List.not_mem_nil

/-- Its size is listed as -2147483648 and reported as 2147483648. -/
theorem terabyte_listed_negative : WellFormed terabyte ∧
    printPartDos terabyte 1 = some [.heading, .part 1 1 (-2147483648) 0x83 false] ∧
    ¬ ListedAreFound terabyte := by
  refine ⟨terabyte_wellFormed, by decide, fun right => ?_⟩
  have below := belowSign_of_found terabyte_wellFormed right 1 0x80000000
    ⟨mbr, .refl, _, rfl, 0, by decide, by decide, by decide, by decide, by decide⟩
  exact absurd below.2 (by decide)

end PartDosList
