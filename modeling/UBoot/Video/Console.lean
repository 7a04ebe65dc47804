import UBoot.Lib.Align
import UBoot.Video.Screen

/-!
# The console in the frame buffer (drivers/video/cfb_console.c)

`video_putc` draws characters of 8 by 16 pixels below the logo, without a cursor. Without
`CONFIG_VIDEO_LOGO` the height of the logo is 0.
-/

namespace Video

/-- `pGD` and the colours, on a screen with room for a character below the logo. Places in the frame
buffer are numbers; the offset in `video_drawchars` is an `int`, enough for frames below 2 GB. -/
structure Graphic where
  format : Format
  winSizeX : Nat
  winSizeY : Nat
  logoHeight : Nat
  fgx : UInt32
  bgx : UInt32
  fontdata : Nat → UInt8
  wide : 8 ≤ winSizeX
  high : logoHeight + 16 ≤ winSizeY
  winSizeX_lt : winSizeX < 2 ^ 31
  winSizeY_lt : winSizeY < 2 ^ 31

variable (g : Graphic)

def Graphic.pixelSize : Nat := g.format.bytesPP

def Graphic.lineLen : Nat := g.winSizeX * g.pixelSize

def Graphic.consoleRows : Nat := (g.winSizeY - g.logoHeight) / 16

def Graphic.consoleCols : Nat := g.winSizeX / 8

/-- `CONSOLE_ROW_FIRST`, which is `video_console_address` -/
def Graphic.rowFirst : Int := g.logoHeight * g.lineLen

def Graphic.size : Nat := g.winSizeY * g.winSizeX * g.pixelSize

def Graphic.eorx : UInt32 := g.fgx ^^^ g.bgx

def drawTable8 : List UInt32 :=
  [0x00000000, 0x000000ff, 0x0000ff00, 0x0000ffff,
    0x00ff0000, 0x00ff00ff, 0x00ffff00, 0x00ffffff,
    0xff000000, 0xff0000ff, 0xff00ff00, 0xff00ffff,
    0xffff0000, 0xffff00ff, 0xffffff00, 0xffffffff]

def drawTable15 : List UInt32 := [0x00000000, 0x00007fff, 0x7fff0000, 0x7fff7fff]

def drawTable16 : List UInt32 := [0x00000000, 0x0000ffff, 0xffff0000, 0xffffffff]

def drawTable24 : List (List UInt32) :=
  [[0x00000000, 0x00000000, 0x00000000],
    [0x00000000, 0x00000000, 0x00ffffff],
    [0x00000000, 0x0000ffff, 0xff000000],
    [0x00000000, 0x0000ffff, 0xffffffff],
    [0x000000ff, 0xffff0000, 0x00000000],
    [0x000000ff, 0xffff0000, 0x00ffffff],
    [0x000000ff, 0xffffffff, 0xff000000],
    [0x000000ff, 0xffffffff, 0xffffffff],
    [0xffffff00, 0x00000000, 0x00000000],
    [0xffffff00, 0x00000000, 0x00ffffff],
    [0xffffff00, 0x0000ffff, 0xff000000],
    [0xffffff00, 0x0000ffff, 0xffffffff],
    [0xffffffff, 0xffff0000, 0x00000000],
    [0xffffffff, 0xffff0000, 0x00ffffff],
    [0xffffffff, 0xffffffff, 0xff000000],
    [0xffffffff, 0xffffffff, 0xffffffff]]

def drawTable32 : List (List UInt32) :=
  [[0x00000000, 0x00000000, 0x00000000, 0x00000000],
    [0x00000000, 0x00000000, 0x00000000, 0x00ffffff],
    [0x00000000, 0x00000000, 0x00ffffff, 0x00000000],
    [0x00000000, 0x00000000, 0x00ffffff, 0x00ffffff],
    [0x00000000, 0x00ffffff, 0x00000000, 0x00000000],
    [0x00000000, 0x00ffffff, 0x00000000, 0x00ffffff],
    [0x00000000, 0x00ffffff, 0x00ffffff, 0x00000000],
    [0x00000000, 0x00ffffff, 0x00ffffff, 0x00ffffff],
    [0x00ffffff, 0x00000000, 0x00000000, 0x00000000],
    [0x00ffffff, 0x00000000, 0x00000000, 0x00ffffff],
    [0x00ffffff, 0x00000000, 0x00ffffff, 0x00000000],
    [0x00ffffff, 0x00000000, 0x00ffffff, 0x00ffffff],
    [0x00ffffff, 0x00ffffff, 0x00000000, 0x00000000],
    [0x00ffffff, 0x00ffffff, 0x00000000, 0x00ffffff],
    [0x00ffffff, 0x00ffffff, 0x00ffffff, 0x00000000],
    [0x00ffffff, 0x00ffffff, 0x00ffffff, 0x00ffffff]]

def pick (table : List UInt32) (i : UInt8) : UInt32 := table.getD i.toNat 0

def pickRow (n : Nat) (table : List (List UInt32)) (i : UInt8) : List UInt32 :=
  (List.range n).map fun k => (table.getD i.toNat []).getD k 0

def patterns : Format → UInt8 → List UInt32
  | .index8, bits => [pick drawTable8 (bits >>> 4), pick drawTable8 (bits &&& 15)]
  | .rgb332, bits => [pick drawTable8 (bits >>> 4), pick drawTable8 (bits &&& 15)]
  | .rgb555, bits =>
    [pick drawTable15 (bits >>> 6), pick drawTable15 (bits >>> 4 &&& 3),
      pick drawTable15 (bits >>> 2 &&& 3), pick drawTable15 (bits &&& 3)]
  | .rgb565, bits =>
    [pick drawTable16 (bits >>> 6), pick drawTable16 (bits >>> 4 &&& 3),
      pick drawTable16 (bits >>> 2 &&& 3), pick drawTable16 (bits &&& 3)]
  | .x888, bits => pickRow 4 drawTable32 (bits >>> 4) ++ pickRow 4 drawTable32 (bits &&& 15)
  | .rgb888, bits => pickRow 3 drawTable24 (bits >>> 4) ++ pickRow 3 drawTable24 (bits &&& 15)

def storeWords : List UInt32 → (dest : Int) → Screen → Screen
  | [], _, s => s
  | w :: ws, dest, s => storeWords ws (dest + 4) (s.store dest 4 w.toNat)

/-- The lines of a character, from line `k` on. -/
def drawRows (cdat : Nat → UInt8) : (rows k : Nat) → (dest : Int) → Screen → Screen
  | 0, _, _, s => s
  | rows + 1, k, dest, s =>
    let words := (patterns g.format (cdat k)).map fun w => (w &&& g.eorx) ^^^ g.bgx
    drawRows cdat rows (k + 1) (dest + g.lineLen) (storeWords words dest s)

/-- `console_col`, `console_row`, `nl`, the screen, and how often it was scrolled. -/
structure Console where
  col : Int
  row : Int
  nl : Bool
  screen : Screen
  scrolls : Nat

def reaches (x : Int) (n : Nat) : Bool := n ≤ (UInt32.ofInt x).toNat

def Console.initial (frame : Int → UInt8) : Console := ⟨0, 0, true, ⟨frame, []⟩, 0⟩

def Console.line (con : Console) : Int := con.row + con.scrolls

/-- The place is on the screen, and nothing is touched but the frame buffer below the logo. -/
structure Console.Sound (frame : Int → UInt8) (con : Console) : Prop where
  col_nonneg : 0 ≤ con.col
  col_lt : con.col < g.consoleCols
  row_nonneg : 0 ≤ con.row
  row_lt : con.row < g.consoleRows
  within : Within g.rowFirst g.size ⟨frame, []⟩ con.screen

def Drawn (c : UInt8) : Prop := c ≠ 13 ∧ c ≠ 10 ∧ c ≠ 9 ∧ c ≠ 8

variable {g : Graphic} {low high : Int}

lemma size_eq (g : Graphic) : (g.size : Int) = g.winSizeY * g.lineLen := by
  rw [Graphic.size, Graphic.lineLen, mul_assoc, Int.natCast_mul]

variable {frame : Int → UInt8} {con : Console}

end Video
