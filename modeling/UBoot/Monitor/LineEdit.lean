import UBoot.Lib.ByteMemory
import UBoot.Lib.Runs

/-!
# The line editor (common/main.c, CONFIG_CMDLINE_EDITING)

`cread_line`, one key at a time, on the console buffer. Every store goes through `put`, which
is `none` outside the buffer. What is printed is left out.
-/

namespace LineEdit

open ByteMemory

abbrev Text := List UInt8

def cbSize : Nat := 256

def histMax : Nat := 20

def histSize : Nat := cbSize

/-- Store bytes one behind the other from index `i` on. -/
def put (buf : Mem) (i : Nat) (bs : List UInt8) : Option Mem :=
  if i + bs.length ≤ cbSize then some (blit buf i bs) else none

/-- The string in the buffer; without a NUL, all of it. -/
def text (buf : Mem) : Text := (slice buf 0 cbSize).takeWhile (· ≠ 0)

structure History where
  lines : Nat → Text           -- `hist_list`
  max : Nat                    -- `hist_max`
  addIdx : Nat                 -- `hist_add_idx`
  cur : Option Nat             -- `hist_cur`; `none` is -1

def histInit : History := ⟨fun _ => [], 0, 0, none⟩

/-- `cread_add_to_hist`: `none` if the line and its NUL do not fit the slot. -/
def addToHist (h : History) (line : Text) : Option History :=
  if line.length + 1 ≤ histSize then
    let add := if h.addIdx + 1 ≥ histMax then 0 else h.addIdx + 1
    some { h with
      lines := Function.update h.lines h.addIdx line
      addIdx := add, max := if add > h.max then add else h.max }
  else none

/-- `hist_prev`: the line, and where the history is then. -/
def histPrev (h : History) : Option Text × History :=
  match h.cur with
  | none => (none, h)
  | some old =>
    let cur := if old = 0 then h.max else old - 1
    if cur = h.addIdx then (none, h) else (some (h.lines cur), { h with cur := some cur })

def histNext (h : History) : Option Text × History :=
  match h.cur with
  | none => (none, h)
  | some old =>
    if old = h.addIdx then (none, h)
    else
      let cur := if old + 1 > h.max then 0 else old + 1
      (some (if cur = h.addIdx then [] else h.lines cur), { h with cur := some cur })

structure Line where
  buf : Mem
  num : Nat
  eol : Nat                    -- `eol_num`

def addChar (c : UInt8) (insert : Bool) (l : Line) : Option Line :=
  if insert ∨ l.num = l.eol then
    if l.eol > cbSize - 1 then some l
    else if insert then do
      let wlen := l.eol + 1 - l.num
      let buf ← if wlen > 1 then put l.buf (l.num + 1) (slice l.buf l.num (wlen - 1))
        else some l.buf
      let buf ← put buf l.num [c]
      some ⟨buf, l.num + 1, l.eol + 1⟩
    else (put l.buf l.num [c]).map fun buf => ⟨buf, l.num + 1, l.eol + 1⟩
  else (put l.buf l.num [c]).map fun buf => ⟨buf, l.num + 1, l.eol⟩

def addStr (cs : List UInt8) (insert : Bool) (l : Line) : Option Line :=
  match cs with
  | [] => some l
  | c :: cs => (addChar c insert l).bind (addStr cs insert)

def deleteChar (l : Line) : Option Line :=
  if l.num < l.eol then
    let wlen := l.eol - l.num - 1
    (if wlen ≠ 0 then put l.buf l.num (slice l.buf (l.num + 1) wlen) else some l.buf).map
      fun buf => ⟨buf, l.num, l.eol - 1⟩
  else some l

def backspace (l : Line) : Option Line :=
  if l.num ≠ 0 then
    let wlen := l.eol - l.num
    (put l.buf (l.num - 1) (slice l.buf l.num wlen)).map fun buf => ⟨buf, l.num - 1, l.eol - 1⟩
  else some l

def eraseToEol (l : Line) : Line := if l.num < l.eol then { l with eol := l.num } else l

def refreshToEol (l : Line) : Line := if l.num < l.eol then { l with num := l.eol } else l

def recallLine (hline : Text) (l : Line) : Option Line :=
  let l := eraseToEol { l with num := 0 }
  (put l.buf 0 (hline ++ [0])).map fun buf =>
    refreshToEol { l with buf := buf, eol := (text buf).length }

/-- What completion knows: the commands, and what lies in memory where the source reads
outside of a name or of `argv`. -/
structure Table where
  names : List Text
  complete : Text → Option (List Text → UInt8 → List Text)     -- `find_cmd (..)->complete`
  behind : Text → Nat → Text                                   -- `name + k`, behind its NUL
  stray : Text                                                 -- `argv[-1]`
  console : Bool                                               -- the prompt is the usual one

def isBlank (c : UInt8) : Bool := c = 32 ∨ c = 9

def makeArgv : Nat → Text → List Text
  | 0, _ => []
  | n + 1, s =>
    let s := s.dropWhile isBlank
    if s = [] then []
    else s.takeWhile (fun c => !isBlank c) ::
      makeArgv n ((s.dropWhile (fun c => !isBlank c)).drop 1)

def atMost (names : List Text) : List Text :=
  if names.length > 18 then names.take 18 ++ [[46, 46, 46]] else names

def completeCmdv (t : Table) (argv : List Text) (last : UInt8) : List Text :=
  match argv with
  | [] => atMost t.names
  | cmd :: args =>
    if args ≠ [] ∨ last = 0 ∨ isBlank last then
      match t.complete cmd with
      | none => []
      | some complete => complete argv last
    else atMost (t.names.filter ((cmd.takeWhile (· ≠ 46)).isPrefixOf ·))

def common : Text → Text → Nat
  | a :: as, b :: bs => if a = b then common as bs + 1 else 0
  | _, _ => 0

def findCommon : List Text → Nat
  | [] => 0
  | anchor :: rest => rest.foldl (fun len t => common (anchor.take len) t) anchor.length

def addition (t : Table) (argv cmdv : List Text) : Option (Text × Bool) :=
  let k := (argv.getLast?.getD t.stray).length
  match cmdv with
  | [] => none
  | [name] => some (if k ≤ name.length then name.drop k else t.behind name k, true)
  | name :: _ =>
    let j := findCommon cmdv
    if k < j then some ((name.drop k).take (j - k), false) else none

def cmdAutoComplete (t : Table) (buf : Mem) (n : Nat) : Option (Mem × Nat) :=
  if t.console then
    let line := text buf
    let argv := makeArgv 16 line
    let cmdv := completeCmdv t argv (line.getLast?.getD 0)
    match addition t argv cmdv with
    | none => some (buf, n)
    | some (s, sep) =>
      let added := if sep then s ++ [32] else s
      if n + added.length ≥ cbSize - 2 then some (buf, n)
      else (put buf line.length (added ++ [0])).map fun buf => (buf, n + added.length)
  else some (buf, n)

def complete (t : Table) (l : Line) : Option Line :=
  if l.num < l.eol then some l
  else do
    let buf ← put l.buf l.num [0]
    let (buf, num2) ← cmdAutoComplete t buf l.num
    some ⟨buf, l.num + (num2 - l.num), l.eol + (num2 - l.num)⟩

structure State where
  line : Line
  insert : Bool
  esc : List UInt8             -- the first `esc_len` of `esc_save`
  hist : History

def start (buf : Mem) (hist : History) : State :=
  ⟨⟨store buf 0 0, 0, 0⟩, true, [], hist⟩

def init : State := start (fun _ => 0) histInit

def finish (s : State) : Option State := do
  let buf ← put s.line.buf s.line.eol [0]
  let line := text buf
  let hist ← if line ≠ [] ∧ line.head? ≠ some 33 then addToHist s.hist line else some s.hist
  some (start buf { hist with cur := some hist.addIdx })

def browse (found : Option Text × History) (s : State) : Option State :=
  match found.1 with
  | none => some { s with esc := [], hist := found.2 }
  | some hline => (recallLine hline s.line).map fun l =>
      { s with line := l, esc := [], hist := found.2 }

def State.edit (s : State) (l : Option Line) : Option State :=
  l.map fun l => { s with line := l }

def handleKey (t : Table) (s : State) (c : UInt8) : Option State :=
  let l := s.line
  if c = 0x1b then some { s with esc := if s.esc = [] then [c] else [] }
  else if c = 1 then some { s with line := { l with num := 0 } }                       -- ^A
  else if c = 3 then some (start l.buf s.hist)                                         -- ^C
  else if c = 6 then s.edit (some (if l.num < l.eol then { l with num := l.num + 1 } else l))
  else if c = 2 then s.edit (some (if l.num ≠ 0 then { l with num := l.num - 1 } else l))
  else if c = 4 then s.edit (deleteChar l)                                             -- ^D
  else if c = 11 then s.edit (some (eraseToEol l))                                     -- ^K
  else if c = 5 then s.edit (some (refreshToEol l))                                    -- ^E
  else if c = 15 then some { s with insert := !s.insert }                              -- ^O
  else if c = 24 ∨ c = 21 then s.edit (some (eraseToEol { l with num := 0 }))          -- ^X, ^U
  else if c = 255 ∨ c = 127 ∨ c = 8 then s.edit (backspace l)
  else if c = 16 then browse (histPrev s.hist) s                                       -- ^P
  else if c = 14 then browse (histNext s.hist) s                                       -- ^N
  else if c = 9 then s.edit (complete t l)
  else s.edit (addChar c s.insert l)

def arrow (c : UInt8) : Option UInt8 :=
  if c = 68 then some 2
  else if c = 67 then some 6
  else if c = 72 then some 1
  else if c = 65 then some 16
  else if c = 66 then some 14
  else none

def press (t : Table) (s : State) (c : UInt8) : Option State :=
  if c = 10 ∨ c = 13 then finish s
  else if s.esc = [] then handleKey t s c
  else if s.esc.length = 1 then
    if c = 91 then some { s with esc := s.esc ++ [c] }
    else (addStr s.esc s.insert s.line).map fun l => { s with line := l, esc := [] }
  else match arrow c with
    | some c => handleKey t { s with esc := [] } c
    | none => (addStr (s.esc ++ [c]) s.insert s.line).map fun l => { s with line := l, esc := [] }

end LineEdit
