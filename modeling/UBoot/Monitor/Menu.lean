import UBoot.Lib.NumberText
import UBoot.Monitor.RunCommand
import UBoot.Nand.WrittenPages

/-!
# The menu (common/cmd_menu.c)

What the keys of `menu_shell` run, and which of the commands of a line are called.
-/

namespace Monitor

/-- The line `menu_shell` runs for a key ('f' once it is confirmed). -/
def menuLine : Char → Option String
  | 'o' => some "tftp 0x30000000 u-boot.bin; protect off 1:0-8; erase 1:0-8; cp.b 0x30000000 0 40000"
  | 'u' => some "tftp 0x30000000 u-boot.bin; nand erase 0 0x60000; nand write 0x30000000 0 0x60000"
  | 'l' => some "tftp 0x30000000 logo.bmp; nand erase 0x80000 0x80000; nand write 0x30000000 0x80000 0x80000"
  | 'k' => some "tftp 0x30000000 uImage; nand erase 0x100000 0x500000; nand write 0x30000000 0x100000 0x500000"
  | 'y' => some "tftp 0x30000000 rootfs.yaffs2; nand erase 0x600000 0x2800000; nand write.yaffs2 0x30000000 0x600000 $(filesize)"
  | 'c' => some "tftp 0x30000000 rootfs.cramfs; nand erase 0x600000 0x2800000; nand write 0x30000000 0x600000 $(filesize)"
  | 'e' => some "tftp 0x30000000 config.yaffs2; nand erase 0x2E00000 0xA00000; nand write.yaffs2 0x30000000 0x2E00000 $(filesize)"
  | 'a' => some "tftp 0x30000000 app.cramfs; nand erase 0x3800000 0xC800000; nand write 0x30000000 0x3800000 $(filesize)"
  | 'd' => some "tftp 0x30000000 test.bin;go 0x30000000"
  | 'b' => some "tftp 0x30000000 u-boot.bin;go 0x30000000"
  | 't' => some "tftp 0x30007fc0 uImage; bootm 0x30007FC0"
  | 'f' => some "nand erase 0 0x25600000"
  | 'r' => some "reset"
  | _ => none

def downloadKeys : Text := ['o', 'u', 'l', 'k', 'y', 'c', 'e', 'a', 'd', 'b', 't']

def tftp : Text := ['t', 'f', 't', 'p']

variable {σ : Type}

lemma macros_plain (getenv : Text → Option Text) {cs : Text} {m : Macros} {prev : Char}
    (state : m.state = .dollar) (room : cs.length < m.outputcnt)
    (plain : ∀ c ∈ cs, c ≠ '$' ∧ c ≠ singleQuote ∧ c ≠ backslash) :
    macros getenv m prev false cs = m.output.reverse ++ cs := by
  induction cs generalizing m prev with
  | nil => simp [macros]
  | cons c cs ih =>
    obtain ⟨dollar, quote, escape⟩ := plain c List.mem_cons_self
    simp only [List.length_cons] at room
    have more : m.outputcnt ≠ 0 := by omega
    have put : m.char getenv prev c = ⟨.dollar, c :: m.output, m.outputcnt - 1⟩ := by
      have fits : [c].take m.outputcnt = [c] := List.take_of_length_le (by simp; omega)
      simp only [Macros.char, state, quote, dollar, false_and, if_false, Macros.put, fits,
        List.reverse_singleton, List.singleton_append, List.length_singleton]
    rw [macros, if_neg more, if_neg (by simp [escape]), put,
      ih rfl (by dsimp only; omega) (fun d hd => plain d (List.mem_cons_of_mem c hd))]
    simp

/-- No character with a meaning to `process_macros`. -/
def Plain (token : Text) : Prop :=
  token.length < cbSize ∧ ∀ c ∈ token, c ≠ '$' ∧ c ≠ singleQuote ∧ c ≠ backslash

instance (token : Text) : Decidable (Plain token) :=
  have := List.decidableBAll (fun c => c ≠ '$' ∧ c ≠ singleQuote ∧ c ≠ backslash) token
  inferInstanceAs (Decidable (_ ∧ _))

lemma processMacros_plain (getenv : Text → Option Text) {token : Text}
    (plain : Plain token) : processMacros getenv token = token := by
  obtain ⟨short, plain⟩ := plain
  rw [processMacros, macros_plain getenv rfl short plain, List.reverse_nil, List.nil_append]
  apply List.take_of_length_le
  omega

lemma lookup_plain (sys : System σ) (state : σ) {token name : Text} {args : List Text}
    {c : Command σ} (plain : Plain token) (line : parseLine token = name :: args)
    (found : findCmd sys.table name = some c) (enough : (name :: args).length ≤ c.maxargs) :
    sys.lookup state false token = some (c, name :: args) := by
  have bound : ¬ c.maxargs < (name :: args).length := by omega
  simp only [System.lookup, processMacros_plain _ plain, line, found, if_neg bound,
    Bool.and_false, Bool.false_eq_true, if_false]

/-- `tftp` with two arguments, and more behind it. -/
def Downloads (line : Text) : Prop :=
  line ≠ [] ∧ line.length < cbSize ∧ match tokens nul false [] line with
  | first :: _ :: _ =>
    Plain first ∧ (parseLine first).head? = some tftp ∧ (parseLine first).length = 3
  | _ => False

instance (line : Text) : Decidable (Downloads line) := by
  unfold Downloads
  cases tokens nul false [] line with
  | nil => infer_instance
  | cons first rest => cases rest <;> infer_instance

lemma menuLine_downloads {key : Char} {line : String} (entry : menuLine key = some line)
    (download : key ∈ downloadKeys) : Downloads line.toList := by
  simp only [downloadKeys, List.mem_cons, List.not_mem_nil, or_false] at download
  rcases download with rfl | rfl | rfl | rfl | rfl | rfl | rfl | rfl | rfl | rfl | rfl <;>
  · cases entry
    rw [String.toList_ofList]
    decide +kernel

lemma runCommand_tokens (sys : System σ) {line : Text} (flag : Bool) (state : σ)
    (nonempty : line ≠ []) (short : line.length < cbSize) : runCommand sys line flag state =
      runTokens sys (tokens nul false [] line) flag 1 0 (sys.clearCtrlc state) := by
  have fits : ¬ (line = [] ∨ cbSize ≤ line.length) := by
    rintro (empty | long)
    · exact nonempty empty
    · omega
  simp only [runCommand, if_neg fits]

lemma visits_tokens (sys : System σ) (commands : List Text) (state : σ) (flag : Bool) :
    (sys.visits state flag commands).map Visit.token = commands := by
  induction commands generalizing state flag with
  | nil => rfl
  | cons token rest ih =>
    rw [System.visits, List.map_cons]
    split
    · rw [ih]
    · rw [ih]

lemma argv_plain (sys : System σ) {v : Visit σ} (plain : Plain v.token) :
    sys.argv v = parseLine v.token := by
  rw [System.argv, processMacros_plain _ plain]

lemma GoesThrough.first {sys : System σ} {v : Visit σ} {visits : List (Visit σ)} {n : Nat}
    {out : Outcome σ} {call : Call} {state : σ} (goes : GoesThrough sys (v :: visits) n out)
    (called : sys.invoke v = some (call, state)) :
    out.calls.head? = some call ∧ (sys.hadCtrlc state = true → out.calls = [call] ∧ out.rc = -1) := by
  have stops : sys.interrupted v = sys.hadCtrlc state := by
    rw [System.interrupted, called, Option.any_some]
  obtain ⟨k, rfl⟩ := Nat.exists_eq_succ_of_ne_zero (goes.pos (List.cons_ne_nil _ _)).ne'
  have calls := goes.calls
  rw [List.take_succ_cons, List.filterMap_cons, called, Option.map_some] at calls
  refine ⟨by rw [calls]; rfl, fun pressed => ?_⟩
  have only : k = 0 := by
    by_contra more
    have quiet := goes.calm 0 (by omega) v rfl
    rw [stops, pressed] at quiet
    cases quiet
  rw [only, List.take_zero, List.filterMap_nil] at calls
  refine ⟨calls, goes.rc v ?_ (stops.trans pressed)⟩
  rw [List.take_succ_cons]
  exact List.mem_cons_self

/-- What the keys of the menu call. `tftp` is first. Whatever it returns, the other commands of the
line follow in their order, each with its words, to the first one that is interrupted by ^C. -/
theorem menu_commands_follow (sys : System σ) (state : σ) (key : Char) (line : String)
    (t : Command σ) (entry : menuLine key = some line) (download : key ∈ downloadKeys)
    (found : findCmd sys.table tftp = some t) (takes : 3 ≤ t.maxargs) :
    ∃ first later, tokens nul false [] line.toList = first :: later ∧ later ≠ [] ∧
      (parseLine first).head? = some tftp ∧
      let start := sys.clearCtrlc state
      let result := t.cmd start t.bootd (parseLine first)
      let visits := sys.visits start false (first :: later)
      let out := runCommand sys line.toList false state
      visits.map Visit.token = first :: later ∧
      (∀ v ∈ visits, Plain v.token → sys.argv v = parseLine v.token) ∧
      out.calls.head? = some ⟨parseLine first, result.status⟩ ∧
      (sys.hadCtrlc result.state = true →
        out.calls = [⟨parseLine first, result.status⟩] ∧ out.rc = -1) ∧
      ∃ n, 0 < n ∧ GoesThrough sys visits n out ∧
        ((∀ v ∈ visits, (sys.invoke v).isSome) →
          out.calls.map Call.argv = (visits.take n).map sys.argv) := by
  obtain ⟨nonempty, short, shape⟩ := menuLine_downloads entry download
  cases split : tokens nul false [] line.toList with
  | nil => rw [split] at shape; exact shape.elim
  | cons first later =>
    cases later with
    | nil => rw [split] at shape; exact shape.elim
    | cons next later =>
      rw [split] at shape
      obtain ⟨plain, head, three⟩ := shape
      refine ⟨first, next :: later, rfl, List.cons_ne_nil _ _, head, ?_⟩
      obtain ⟨args, words⟩ := List.head?_eq_some_iff.mp head
      have enough : (tftp :: args).length ≤ t.maxargs := by rw [← words, three]; exact takes
      have called := lookup_plain sys (sys.clearCtrlc state) plain words found enough
      have made : sys.invoke ⟨sys.clearCtrlc state, false, first⟩ =
          some (⟨parseLine first, (t.cmd (sys.clearCtrlc state) t.bootd (parseLine first)).status⟩,
            (t.cmd (sys.clearCtrlc state) t.bootd (parseLine first)).state) := by
        rw [System.invoke, called, Option.map_some, words, Bool.false_or]
      obtain ⟨n, goes⟩ := runTokens_goesThrough sys (first :: next :: later) false 1 0
        (sys.clearCtrlc state)
      rw [← split, ← runCommand_tokens sys false state nonempty short, split] at goes
      obtain ⟨front, stopped⟩ := goes.first made
      exact ⟨visits_tokens sys _ _ _, fun v _ => argv_plain sys, front, stopped, n,
        goes.pos (List.cons_ne_nil _ _), goes, goes.argvs⟩

def nand : Text := ['n', 'a', 'n', 'd']
def erase : Text := ['e', 'r', 'a', 's', 'e']
def write : Text := ['w', 'r', 'i', 't', 'e']

def tftpboot : Command Unit := ⟨tftp ++ ['b', 'o', 'o', 't'], 3, 1, false, fun _ _ _ => ⟨1, ()⟩⟩

def deadServer : System Unit where
  table := [⟨nand, 5, 1, false, fun _ _ _ => ⟨0, ()⟩⟩, tftpboot]
  getenv := fun _ _ => none
  hadCtrlc := fun _ => false
  clearCtrlc := fun _ => ()

lemma deadServer_calm (v : Visit Unit) : deadServer.interrupted v = false := by
  rw [System.interrupted]
  cases deadServer.invoke v with
  | none => rfl
  | some called => rfl

lemma bootloader_known : ∃ line, menuLine 'u' = some line ∧
    (∀ v ∈ deadServer.visits () false (tokens nul false [] line.toList),
      (deadServer.invoke v).isSome ∧ Plain v.token) := by
  refine ⟨_, rfl, ?_⟩
  rw [String.toList_ofList]
  decide +kernel

/-- All commands of the entry of the boot loader are called in their order though `tftp` fails. -/
theorem menu_commands_follow_dead : ∃ line, menuLine 'u' = some line ∧
    (runCommand deadServer line.toList false ()).calls.head?.map Call.status = some 1 ∧
    (runCommand deadServer line.toList false ()).calls.map Call.argv =
      (tokens nul false [] line.toList).map parseLine := by
  obtain ⟨line, entry, ready⟩ := bootloader_known
  obtain ⟨first, later, split, -, -, names, plain, front, -, n, -, goes, argvs⟩ :=
    menu_commands_follow deadServer () 'u' line tftpboot entry (by decide) rfl (by decide)
  rw [split] at ready
  have all : n = (deadServer.visits () false (first :: later)).length := by
    refine Nat.le_antisymm goes.le (Nat.not_lt.mp fun less => ?_)
    obtain ⟨i, v, -, -, stops⟩ := goes.stopped less
    cases (deadServer_calm v).symm.trans stops
  have words : (deadServer.visits () false (first :: later)).map deadServer.argv =
      ((deadServer.visits () false (first :: later)).map Visit.token).map parseLine := by
    rw [List.map_map]
    exact List.map_congr_left fun v member => plain v member (ready v member).2
  refine ⟨line, entry, by rw [front]; rfl, ?_⟩
  rw [split, argvs fun v member => (ready v member).1, all]
  exact (congrArg _ (List.take_length ..)).trans (words.trans (congrArg _ names))

/-- The failed download of u-boot.bin is followed by the erase and the write. -/
theorem failed_download_erases : ∃ line, menuLine 'u' = some line ∧
    let calls := (runCommand deadServer line.toList false ()).calls
    (calls.head?.map (fun call => (call.argv.head?, call.status))) = some (some tftp, 1) ∧
    calls.tail.map (fun call => (call.argv.take 2, call.status)) =
      [([nand, erase], 0), ([nand, write], 0)] := by
  refine ⟨_, rfl, ?_⟩
  rw [String.toList_ofList]
  decide +kernel

end Monitor

/-!
## What the menu erases and writes

The `nand erase` and `nand write` commands in the lines of `menu_shell`, and the pages that the
write programs.
-/

namespace Monitor

open NandBase NandUtil ByteMemory WrittenPages

/-- A range to erase, and a write; the length written is a number or the size of the file. -/
structure FlashEntry where
  eraseOffset : Nat
  eraseLength : Nat
  yaffs2 : Bool
  buffer : Nat
  offset : Nat
  size : Option Nat
deriving DecidableEq

def number (word : Text) : Option Nat :=
  let (value, rest) := NumberText.simpleStrtoul (word.map (fun c => UInt8.ofNat c.toNat)) 16
  if word ≠ [] ∧ rest = [] then some value.toNat else none

def writeYaffs2 : Text := write ++ ['.', 'y', 'a', 'f', 'f', 's', '2']

/-- `tftp` sets `filesize` to the length in hexadecimal digits. -/
def filesizeMacro : Text := ['$', '(', 'f', 'i', 'l', 'e', 's', 'i', 'z', 'e', ')']

def eraseCommand : List Text → Option (Nat × Nat)
  | [command, sub, offset, length] =>
    if command = nand ∧ sub = erase then do
      let offset ← number offset
      let length ← number length
      some (offset, length)
    else none
  | _ => none

def writeCommand (range : Nat × Nat) : List Text → Option FlashEntry
  | [command, sub, buffer, offset, size] =>
    if command = nand ∧ (sub = write ∨ sub = writeYaffs2) then do
      let buffer ← number buffer
      let offset ← number offset
      let size ← if size = filesizeMacro then some none else (number size).map some
      some ⟨range.1, range.2, sub = writeYaffs2, buffer, offset, size⟩
    else none
  | _ => none

def flashEntry (line : Text) : Option FlashEntry :=
  match (tokens nul false [] line).map parseLine with
  | [_, second, third] => (eraseCommand second).bind fun range => writeCommand range third
  | _ => none

/-- The device as `do_nand` sets it for the write. -/
def FlashEntry.device (e : FlashEntry) (mtd : Mtd) : Mtd := { mtd with rwOob := some e.yaffs2 }

/-- `nand write` or `nand write.yaffs2` of a file of `filesize` bytes. -/
def FlashEntry.write (e : FlashEntry) (fuel : Nat) (mtd : Mtd) (chip : NandBase.Chip) (ram : Mem)
    (filesize : Nat) : Option NandUtil.Result :=
  let length := e.size.getD filesize
  if e.yaffs2 then nandWriteYaffs2 fuel mtd chip ram e.offset length e.buffer
  else nandWriteSkipBad fuel { mtd with rwOob := some false } false chip ram e.offset length e.buffer

lemma FlashEntry.write_eq (e : FlashEntry) (fuel : Nat) (mtd : Mtd) (chip : NandBase.Chip)
    (ram : Mem) (filesize : Nat) : e.write fuel mtd chip ram filesize =
      nandWriteSkipBad fuel (e.device mtd) e.yaffs2 chip ram e.offset (e.size.getD filesize)
        e.buffer := by
  rw [FlashEntry.write, FlashEntry.device]
  cases e.yaffs2 with
  | true => rfl
  | false => rfl

def FlashEntry.Aligned (e : FlashEntry) : Prop :=
  e.offset = e.eraseOffset ∧ e.eraseOffset % 0x20000 = 0 ∧ e.eraseLength % 0x20000 = 0

instance (e : FlashEntry) : Decidable e.Aligned := inferInstanceAs (Decidable (_ ∧ _))

lemma menuLine_aligned {key : Char} {line : String} (entry : menuLine key = some line) :
    (flashEntry line.toList).all (fun e => decide e.Aligned) = true := by
  unfold menuLine at entry
  split at entry <;> first
  | cases entry
    rw [String.toList_ofList]
    decide +kernel
  | cases entry

lemma aligned_of_entry {key : Char} {line : String} {e : FlashEntry}
    (entry : menuLine key = some line) (flash : flashEntry line.toList = some e) : e.Aligned := by
  have all := menuLine_aligned entry
  rw [flash] at all
  exact of_decide_eq_true all

lemma range_blocks {key : Char} {line : String} {e : FlashEntry}
    (entry : menuLine key = some line) (flash : flashEntry line.toList = some e) {mtd : Mtd}
    (blocks : mtd.geo.erasesize ∣ 0x20000) :
    mtd.geo.erasesize ∣ e.eraseOffset ∧ mtd.geo.erasesize ∣ e.eraseLength := by
  obtain ⟨-, offset, length⟩ := aligned_of_entry entry flash
  constructor
  · exact Nat.dvd_trans blocks (Nat.dvd_of_mod_eq_zero offset)
  · exact Nat.dvd_trans blocks (Nat.dvd_of_mod_eq_zero length)

/-- The write of a menu entry programs only pages of the range that its erase is about exactly
when the image is contained in it. -/
theorem menu_write_in_range_iff (key : Char) (line : String) (e : FlashEntry)
    (entry : menuLine key = some line) (flash : flashEntry line.toList = some e) (mtd : Mtd)
    (offsetBlock : mtd.geo.erasesize ∣ e.eraseOffset)
    (lengthBlock : mtd.geo.erasesize ∣ e.eraseLength) (filesize : Nat) :
    (∀ fuel chip ram r, e.write fuel mtd chip ram filesize = some r →
      ∀ q ∈ r.chip.programmed,
        q ∈ chip.programmed ∨ InRange mtd e.eraseOffset e.eraseLength q) ↔
    Contained (e.device mtd) e.yaffs2 e.eraseOffset e.eraseLength (e.size.getD filesize) := by
  obtain ⟨same, -, -⟩ := aligned_of_entry entry flash
  have yaffs : (e.device mtd).rwOob ≠ none := Option.some_ne_none _
  simp only [e.write_eq, same]
  exact call_inRange_iff yaffs offsetBlock lengthBlock e.yaffs2 (e.size.getD filesize) e.buffer

def firstBad : Mtd where
  geo := { pageShift := 11, eraseShift := 17, shift_le := by decide, eraseShift_lt := by decide,
           blocks := 2048, oobsize := 64 }
  size_le := by decide
  bad b := b == 0
  flips _ := false
  subpageSft := 0
  subpageSft_le := by decide
  subpageRead := none
  subpageRead_pos := no_subpages
  writeEcc _ spare := spare
  rwOob := some false

def bootloader : FlashEntry := ⟨0, 0x60000, false, 0x30000000, 0, some 0x60000⟩

lemma bootloader_entry : ∃ line, menuLine 'u' = some line ∧
    flashEntry line.toList = some bootloader := by
  refine ⟨_, rfl, ?_⟩
  rw [String.toList_ofList]
  decide +kernel

theorem menu_write_in_range_bootloader : ∃ line, menuLine 'u' = some line ∧
    ((∀ fuel chip ram r, bootloader.write fuel firstBad chip ram 0 = some r →
      ∀ q ∈ r.chip.programmed, q ∈ chip.programmed ∨ InRange firstBad 0 0x60000 q) ↔
    Contained (bootloader.device firstBad) false 0 0x60000 0x60000) := by
  obtain ⟨line, entry, flash⟩ := bootloader_entry
  obtain ⟨offset, length⟩ := range_blocks entry flash (Nat.dvd_refl firstBad.geo.erasesize)
  exact ⟨line, entry, menu_write_in_range_iff 'u' line bootloader entry flash firstBad offset
    length 0⟩

lemma bootloader_not_contained :
    ¬ Contained (bootloader.device firstBad) false 0 0x60000 0x60000 := by
  have block : (bootloader.device firstBad).geo.erasesize = 0x20000 := by decide
  have three := Yaffs2Write.rank_blocks (bootloader.device firstBad) (Nat.zero_le 3)
  have four := Yaffs2Write.rank_blocks (bootloader.device firstBad) (Nat.zero_le 4)
  have two_good : Rank.rank (fun b => !(bootloader.device firstBad).bad b) 0 3 = 2 := by decide
  have three_good : Rank.rank (fun b => !(bootloader.device firstBad).bad b) 0 4 = 3 := by decide
  rw [two_good, block, zero_mul] at three
  rw [three_good, block, zero_mul] at four
  have more : Rank.rank (GoodSpace.goodByte (bootloader.device firstBad)) 0 (4 * 0x20000) ≤
      Rank.rank (GoodSpace.goodByte (bootloader.device firstBad)) 0
        (bootloader.device firstBad).geo.size := Rank.rank_le_of_le (by decide) (by decide)
  have data : dataLength (bootloader.device firstBad) 0x60000 = 0x60000 := rfl
  have start : 0 + 0x60000 = 3 * 0x20000 := rfl
  rintro (refused | few | fits | none_left)
  · rcases refused with ⟨yaffs, -⟩ | offset | whole
    · cases yaffs
    · exact offset rfl
    · exact whole rfl
  · rw [data] at few
    omega
  · rw [data, start, three, skippedBytes, if_neg (by decide)] at fits
    omega
  · rw [start, three, skippedBytes, if_neg (by decide)] at none_left
    omega

/-- With a bad block in its range the boot loader goes on into the block of the environment. -/
theorem bootloader_over_environment : ∃ line, menuLine 'u' = some line ∧
    flashEntry line.toList = some bootloader ∧
    ¬ ∀ fuel chip ram r, bootloader.write fuel firstBad chip ram 0 = some r →
      ∀ q ∈ r.chip.programmed, q ∈ chip.programmed ∨ InRange firstBad 0 0x60000 q := by
  obtain ⟨line, entry, flash⟩ := bootloader_entry
  refine ⟨line, entry, flash, ?_⟩
  simp only [FlashEntry.write_eq]
  intro inside
  have yaffs : (bootloader.device firstBad).rwOob ≠ none := by decide
  have blocks : (bootloader.device firstBad).geo.erasesize ∣ 0x60000 := by decide
  exact bootloader_not_contained
    ((call_inRange_iff yaffs (Nat.dvd_zero _) blocks false 0x60000 0x30000000).mp inside)

end Monitor
