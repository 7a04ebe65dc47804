import UBoot.Lib.Align
import UBoot.Video.Screen

/-!
# Bitmaps on the screen (drivers/video/cfb_console.c)

`video_display_bitmap`, for a frame buffer that is not swapped, with the empty `video_set_lut` of
`s3c2440_fb.c`. Positions are relative to the frame buffer, modulo 2^32.
-/

namespace Bitmap

open Video

/-- `pGD`, where no side of the screen has more than 65535 pixels. -/
structure Mode where
  format : Format
  winSizeX : Nat
  winSizeY : Nat
  winSizeX_lt : winSizeX < 65536
  winSizeY_lt : winSizeY < 65536
  fits : winSizeY * winSizeX * format.bytesPP < 4294967296

structure Header where
  signature : UInt8 × UInt8
  data_offset : UInt32
  width : UInt32
  height : UInt32
  bit_count : UInt16
  compression : UInt32
  colors_used : UInt32

structure Color where
  blue : UInt8
  green : UInt8
  red : UInt8

/-- A bitmap in memory, whose header is at `addr`. -/
structure Bmp where
  addr : UInt32
  header : Header
  color_table : UInt8 → Color
  mem : UInt32 → UInt8

/-- What the `FILL` macros store, the first byte lowest. There is none for indices. -/
def fill (f : Format) (c : Color) : Option Nat :=
  let r := c.red.toNat
  let g := c.green.toNat
  let b := c.blue.toNat
  match f with
  | .index8 => none
  | .rgb332 => some ((r >>> 5) <<< 5 ||| (g >>> 5) <<< 2 ||| b >>> 6)
  | .rgb555 => some ((r >>> 3) <<< 10 ||| (g >>> 3) <<< 5 ||| b >>> 3)
  | .rgb565 => some ((r >>> 3) <<< 11 ||| (g >>> 2) <<< 5 ||| b >>> 3)
  | .x888 => some (r <<< 16 ||| g <<< 8 ||| b)
  | .rgb888 => some (r ||| g <<< 8 ||| b <<< 16)

/-- The pixel that is read at `bmap`, from a bitmap with 8 bits per pixel or with 24. -/
def Bmp.pixel (bmp : Bmp) (f : Format) (bmap : UInt32) : Option Nat :=
  if bmp.header.bit_count = 8 then
    if f = .index8 then some (bmp.mem bmap).toNat else fill f (bmp.color_table (bmp.mem bmap))
  else fill f ⟨bmp.mem bmap, bmp.mem (bmap + 1), bmp.mem (bmap + 2)⟩

def Header.pixelBytes (h : Header) : Nat := if h.bit_count = 8 then 1 else 3

structure Cursor where
  bmap : UInt32
  fb : UInt32
  screen : Screen

structure Plan where
  pixel : UInt32 → Nat
  pixelBytes : Nat               -- of the bitmap
  pixelSize : Nat                -- `VIDEO_PIXEL_SIZE`
  xcount : UInt16
  padded_line : UInt16
  back : UInt32

def drawRow (p : Plan) : (xcount : Nat) → Cursor → Cursor
  | 0, c => c
  | xcount + 1, c => drawRow p xcount
    ⟨c.bmap + UInt32.ofNat p.pixelBytes, c.fb + UInt32.ofNat p.pixelSize,
      c.screen.store c.fb.toNat p.pixelSize (p.pixel c.bmap)⟩

def drawRows (p : Plan) : (ycount : Nat) → Cursor → Cursor
  | 0, c => c
  | ycount + 1, c =>
    let c := drawRow p p.xcount.toNat c
    drawRows p ycount ⟨c.bmap + p.padded_line.toUInt32, c.fb - p.back, c.screen⟩

/-- `for (xcount = 0; xcount < colors; ++xcount)`, which calls nothing but `video_set_lut`. -/
def copyColormap (colors : UInt32) : (fuel : Nat) → (xcount : UInt16) → Option Unit
  | 0, _ => none
  | fuel + 1, xcount =>
    if xcount.toUInt32 < colors then copyColormap colors fuel (xcount + 1) else some ()

def clip (pos size visible : UInt32) : UInt32 :=
  if visible < pos + size then visible - pos else size

def Header.paddedLine (h : Header) : UInt16 :=
  ((((h.width * h.bit_count.toUInt32 + 7) / 8) + 3) &&& ~~~3).toUInt16

def Bmp.plan (bmp : Bmp) (m : Mode) (width : UInt32) : Plan where
  pixel bmap := (bmp.pixel m.format bmap).getD 0
  pixelBytes := bmp.header.pixelBytes
  pixelSize := m.format.bytesPP
  xcount := width.toUInt16
  padded_line :=
    bmp.header.paddedLine - (UInt32.ofNat bmp.header.pixelBytes * width).toUInt16
  back := (UInt32.ofNat m.winSizeX + width) * UInt32.ofNat m.format.bytesPP

/-- The `switch` over the formats, behind the clipping. -/
def draw (m : Mode) (bmp : Bmp) (x y width height : UInt32) (s : Screen) : Screen :=
  let size := UInt32.ofNat m.format.bytesPP
  (drawRows (bmp.plan m width) height.toUInt16.toNat
    ⟨bmp.addr + bmp.header.data_offset,
      (y + height - 1) * UInt32.ofNat m.winSizeX * size + x * size, s⟩).screen

/-- `video_display_bitmap`, which returns 0 or 1. -/
def videoDisplayBitmap (m : Mode) (bmp : Bmp) (x y : Int) (s : Screen) (fuel : Nat) :
    Option (Nat × Screen) :=
  let h := bmp.header
  let x := UInt32.ofInt x
  let y := UInt32.ofInt y
  let width := clip x h.width (UInt32.ofNat m.winSizeX)
  let height := clip y h.height (UInt32.ofNat m.winSizeY)
  if h.signature ≠ (66, 77) then some (1, s)
  else if h.compression ≠ 0 then some (1, s)
  else if h.bit_count = 8 then
    if m.format = .index8 then
      (copyColormap h.colors_used fuel 0).map fun _ => (0, draw m bmp x y width height s)
    else some (0, draw m bmp x y width height s)
  else if h.bit_count = 24 then
    if m.format = .index8 then some (0, s)
    else some (0, draw m bmp x y width height s)
  else some (0, s)

def Header.stride (h : Header) : Nat := (h.width.toNat * h.pixelBytes + 3) / 4 * 4

/-- The pixel in column `i` and row `j` from the top. The rows are stored bottom-up. -/
def Bmp.pixelAt (bmp : Bmp) (f : Format) (i j : Nat) : Option Nat :=
  bmp.pixel f (bmp.addr + bmp.header.data_offset + UInt32.ofNat
    ((bmp.header.height.toNat - 1 - j) * bmp.header.stride + i * bmp.header.pixelBytes))

def Mode.offset (m : Mode) (i j : Nat) : Nat := (j * m.winSizeX + i) * m.format.bytesPP

def OnScreen (m : Mode) (h : Header) (x y i j : Nat) : Prop :=
  i < h.width.toNat ∧ j < h.height.toNat ∧ x + i < m.winSizeX ∧ y + j < m.winSizeY

/-- The bitmap is on the screen, with its top-left corner at `(x, y)`, and nothing else has
changed. -/
structure Right (m : Mode) (bmp : Bmp) (x y : Nat) (frame : Int → UInt8) (r : Screen) : Prop where
  inside : ∀ t ∈ r.touched, 0 ≤ t.1 ∧ t.1 + t.2 ≤ m.winSizeY * m.winSizeX * m.format.bytesPP
  shows : ∀ i j v, OnScreen m bmp.header x y i j → bmp.pixelAt m.format i j = some v →
    ∀ b < m.format.bytesPP, r.frame (m.offset (x + i) (y + j) + b : Nat) = LittleEndian.byte v b
  others : ∀ a : Int, (∀ i j v b, OnScreen m bmp.header x y i j →
    bmp.pixelAt m.format i j = some v → b < m.format.bytesPP →
      a ≠ (m.offset (x + i) (y + j) + b : Nat)) → r.frame a = frame a

def Displays (m : Mode) (addr : UInt32) (h : Header) (x y : Nat) : Prop :=
  ∀ color_table mem frame, ∃ fuel r,
    videoDisplayBitmap m ⟨addr, h, color_table, mem⟩ x y ⟨frame, []⟩ fuel = some (0, r) ∧
      Right m ⟨addr, h, color_table, mem⟩ x y frame r

/-- An uncompressed bitmap with 8 or 24 bits per pixel, whose data is in memory. -/
structure Valid (addr : UInt32) (h : Header) : Prop where
  signature : h.signature = (66, 77)
  compression : h.compression = 0
  bits : h.bit_count = 8 ∨ h.bit_count = 24
  memory : addr.toNat + h.data_offset.toNat + h.height.toNat * h.stride ≤ 4294967296

def Refused (m : Mode) (h : Header) : Prop := h.bit_count = 24 ∧ m.format = .index8

def Skipped (pos size visible : Nat) : Prop :=
  if visible < (pos + size) % 4294967296 then pos % 65536 = visible % 65536
  else size % 65536 = 0

/-- The colormap has an end for a counter of 16 bits. A bitmap of which something is on the screen
is not cut off at the bottom, its width does not run over, and what is left out of a row fits
`padded_line`, unless there is one row. Of any other bitmap nothing is drawn. -/
def Displayable (m : Mode) (h : Header) (x y : Nat) : Prop :=
  (h.bit_count = 8 → m.format = .index8 → h.colors_used.toNat < 65536) ∧
    (Refused m h ∨
      if x < m.winSizeX ∧ y < m.winSizeY ∧ 0 < h.width.toNat ∧ 0 < h.height.toNat then
        y + h.height.toNat ≤ m.winSizeY ∧ x + h.width.toNat < 4294967296 ∧
          (h.height.toNat = 1 ∨
            h.stride < min h.width.toNat (m.winSizeX - x) * h.pixelBytes + 65536)
      else Skipped x h.width.toNat m.winSizeX ∨ Skipped y h.height.toNat m.winSizeY)

def Covers (n : Nat) (c : UInt32 × Nat) (a : Int) : Prop := c.1.toNat ≤ a ∧ a < c.1.toNat + n

def plot (n : Nat) (s : Screen) (c : UInt32 × Nat) : Screen := s.store c.1.toNat n c.2

lemma plots_touched (n : Nat) (cells : List (UInt32 × Nat)) (s : Screen) :
    (cells.foldl (plot n) s).touched =
      s.touched ++ cells.map fun c => ((c.1.toNat : Int), n) := by
  induction cells generalizing s with
  | nil => exact (List.append_nil _).symm
  | cons c cells ih =>
    rw [List.foldl_cons, ih, plot, Screen.store, List.append_assoc]
    rfl

lemma plots_uncovered {n : Nat} {cells : List (UInt32 × Nat)} {s : Screen} {a : Int}
    (none : ∀ c ∈ cells, ¬Covers n c a) : (cells.foldl (plot n) s).frame a = s.frame a := by
  induction cells generalizing s with
  | nil => rfl
  | cons c cells ih =>
    obtain ⟨first, rest⟩ := List.forall_mem_cons.mp none
    rw [List.foldl_cons, ih rest]
    exact if_neg first

lemma plots_covered {n : Nat} {cells : List (UInt32 × Nat)} {s : Screen} {a : Int}
    {c : UInt32 × Nat} (member : c ∈ cells) (covers : Covers n c a) :
    ∃ c ∈ cells, Covers n c a ∧
      (cells.foldl (plot n) s).frame a = LittleEndian.byte c.2 (a - c.1.toNat).toNat := by
  induction cells generalizing s c with
  | nil => exact absurd member (List.not_mem_nil)
  | cons d cells ih =>
    rw [List.foldl_cons]
    by_cases later : ∃ e ∈ cells, Covers n e a
    · obtain ⟨e, there, covers'⟩ := later
      obtain ⟨e', there', found⟩ := @ih (plot n s d) e there covers'
      exact ⟨e', List.mem_cons_of_mem d there', found⟩
    have none : ∀ e ∈ cells, ¬Covers n e a := fun e there covered => later ⟨e, there, covered⟩
    have last : c = d := by
      rcases List.mem_cons.mp member with same | there
      · exact same
      · exact absurd covers (none c there)
    subst last
    refine ⟨c, List.mem_cons_self, covers, ?_⟩
    rw [plots_uncovered none]
    exact if_pos covers

def rowCells (p : Plan) (xcount : Nat) (bmap fb : UInt32) : List (UInt32 × Nat) :=
  (List.range xcount).map fun t =>
    (fb + UInt32.ofNat (t * p.pixelSize), p.pixel (bmap + UInt32.ofNat (t * p.pixelBytes)))

def cells (p : Plan) : (ycount : Nat) → (bmap fb : UInt32) → List (UInt32 × Nat)
  | 0, _, _ => []
  | ycount + 1, bmap, fb =>
    rowCells p p.xcount.toNat bmap fb ++
      cells p ycount
        (bmap + UInt32.ofNat (p.xcount.toNat * p.pixelBytes) + p.padded_line.toUInt32)
        (fb + UInt32.ofNat (p.xcount.toNat * p.pixelSize) - p.back)

lemma drawRow_eq (p : Plan) (n : Nat) (c : Cursor) : drawRow p n c =
    ⟨c.bmap + UInt32.ofNat (n * p.pixelBytes), c.fb + UInt32.ofNat (n * p.pixelSize),
      (rowCells p n c.bmap c.fb).foldl (plot p.pixelSize) c.screen⟩ := by
  induction n generalizing c with
  | zero =>
    rw [zero_mul, zero_mul]
    exact congrArg₂ (fun bmap fb => (⟨bmap, fb, c.screen⟩ : Cursor)) (UInt32.add_zero _).symm
      (UInt32.add_zero _).symm
  | succ n ih =>
    have move (a : UInt32) (k t : Nat) :
        a + UInt32.ofNat k + UInt32.ofNat (t * k) = a + UInt32.ofNat ((t + 1) * k) := by
      rw [UInt32.add_assoc, ← UInt32.ofNat_add, Nat.succ_mul, Nat.add_comm]
    have first : rowCells p (n + 1) c.bmap c.fb = (c.fb, p.pixel c.bmap) ::
        rowCells p n (c.bmap + UInt32.ofNat p.pixelBytes) (c.fb + UInt32.ofNat p.pixelSize) := by
      rw [rowCells, List.range_succ_eq_map, List.map_cons, List.map_map, zero_mul, zero_mul]
      refine congrArg₂ List.cons ?_ (List.map_congr_left fun t _ => ?_)
      · rw [show UInt32.ofNat 0 = 0 from rfl, UInt32.add_zero, UInt32.add_zero]
      · rw [Function.comp_apply, move, move]
    rw [drawRow, ih, first, move, move]
    rfl

lemma drawRows_screen (p : Plan) (n : Nat) (c : Cursor) : (drawRows p n c).screen =
    (cells p n c.bmap c.fb).foldl (plot p.pixelSize) c.screen := by
  induction n generalizing c with
  | zero => rfl
  | succ n ih =>
    rw [drawRows, ih, drawRow_eq, cells, List.foldl_append]

lemma clip_toNat (pos size visible : UInt32) : (clip pos size visible).toNat =
    if visible.toNat < (pos.toNat + size.toNat) % 4294967296 then
      (4294967296 - pos.toNat + visible.toNat) % 4294967296
    else size.toNat := by
  unfold clip
  have sum : visible < pos + size ↔ visible.toNat < (pos.toNat + size.toNat) % 4294967296 := by
    rw [UInt32.lt_iff_toNat_lt, UInt32.toNat_add]
  by_cases beyond : visible < pos + size
  · rw [if_pos beyond, if_pos (sum.mp beyond), UInt32.toNat_sub]
  · rw [if_neg beyond, if_neg (mt sum.mpr beyond)]

lemma clip_visible {pos size visible : UInt32} (inside : pos.toNat < visible.toNat)
    (short : pos.toNat + size.toNat < 4294967296) :
    (clip pos size visible).toNat = min size.toNat (visible.toNat - pos.toNat) := by
  rw [clip_toNat, Nat.mod_eq_of_lt short]
  split <;> omega

lemma toUInt16_toNat (w : UInt32) : w.toUInt16.toNat = w.toNat % 65536 := UInt32.toNat_toUInt16 w

lemma clip_skipped (pos size visible : UInt32) :
    (clip pos size visible).toUInt16.toNat = 0 ↔ Skipped pos.toNat size.toNat visible.toNat := by
  have := pos.toNat_lt
  rw [toUInt16_toNat, clip_toNat, Skipped]
  split <;> omega

variable {m : Mode}

lemma pixelBytes_le (h : Header) : 1 ≤ h.pixelBytes ∧ h.pixelBytes ≤ 3 := by
  unfold Header.pixelBytes
  split <;> omega

lemma stride_ge (h : Header) : h.width.toNat * h.pixelBytes ≤ h.stride := by
  rw [Header.stride]
  omega

lemma paddedLine_toNat {h : Header} (bits : h.bit_count = 8 ∨ h.bit_count = 24) :
    h.paddedLine.toNat = h.stride % 65536 := by
  have padded : ∀ n : Nat, (h.width * h.bit_count.toUInt32).toNat = n * 8 % 4294967296 →
      h.paddedLine.toNat = (n + 3) / 4 * 4 % 65536 := by
    intro n product
    have mask : (~~~3 : UInt32).toNat = 2 ^ 32 - 1 - (2 ^ 2 - 1) := rfl
    have bytes : ((h.width * h.bit_count.toUInt32 + 7) / 8 + 3).toNat = n % 536870912 + 3 := by
      have seven : (7 : UInt32).toNat = 7 := rfl
      have eight : (8 : UInt32).toNat = 8 := rfl
      have three : (3 : UInt32).toNat = 3 := rfl
      rw [UInt32.toNat_add, UInt32.toNat_div, UInt32.toNat_add, product, seven, eight, three]
      omega
    rw [Header.paddedLine, toUInt16_toNat, UInt32.toNat_and, mask, bytes,
      Align.and_mask (by decide) (by omega)]
    omega
  unfold Header.stride Header.pixelBytes
  rcases bits with eight | many
  · rw [if_pos eight, mul_one]
    refine padded _ ?_
    rw [UInt32.toNat_mul, eight]
    rfl
  · have other : h.bit_count ≠ 8 := by
      rw [many]
      decide
    rw [if_neg other]
    refine padded _ ?_
    rw [UInt32.toNat_mul, many, mul_assoc]
    rfl

/-- From a row to the next one, where `w` pixels of it are drawn. -/
def Header.advance (h : Header) (w : Nat) : Nat :=
  w * h.pixelBytes + (h.stride - w * h.pixelBytes) % 65536

lemma plan_padded {bmp : Bmp} {width : UInt32}
    (bits : bmp.header.bit_count = 8 ∨ bmp.header.bit_count = 24)
    (less : width.toNat ≤ bmp.header.width.toNat) (narrow : width.toNat < 65536) :
    (bmp.plan m width).padded_line.toNat =
      (bmp.header.stride - width.toNat * bmp.header.pixelBytes) % 65536 := by
  have few := pixelBytes_le bmp.header
  have bytes : bmp.header.pixelBytes % 4294967296 = bmp.header.pixelBytes :=
    Nat.mod_eq_of_lt (by omega)
  have drawn : width.toNat * bmp.header.pixelBytes ≤ bmp.header.stride :=
    (Nat.mul_le_mul_right _ less).trans (stride_ge bmp.header)
  have low : width.toNat * bmp.header.pixelBytes ≤ 65535 * 3 :=
    Nat.mul_le_mul (by omega) few.2
  have product : (UInt32.ofNat bmp.header.pixelBytes * width).toNat =
      width.toNat * bmp.header.pixelBytes := by
    rw [UInt32.toNat_mul, UInt32.toNat_ofNat', bytes, mul_comm]
    exact Nat.mod_eq_of_lt (by omega)
  have difference := UInt16.toNat_sub bmp.header.paddedLine
    (UInt32.ofNat bmp.header.pixelBytes * width).toUInt16
  rw [paddedLine_toNat bits, toUInt16_toNat, product] at difference
  refine difference.trans ?_
  omega

lemma offset_add (m : Mode) (i t j : Nat) :
    m.offset (i + t) j = m.offset i j + t * m.format.bytesPP := by
  rw [Mode.offset, Mode.offset, ← add_assoc, add_mul (j * m.winSizeX + i)]

lemma offset_succ (m : Mode) (i j : Nat) :
    m.offset i (j + 1) = m.offset i j + m.winSizeX * m.format.bytesPP := by
  rw [Mode.offset, Mode.offset, Nat.succ_mul, add_right_comm,
    add_mul (j * m.winSizeX + i)]

lemma offset_inside {i j : Nat} (column : i < m.winSizeX) (row : j < m.winSizeY) :
    m.offset i j + m.format.bytesPP ≤ m.winSizeY * m.winSizeX * m.format.bytesPP := by
  rw [Mode.offset, ← Nat.succ_mul]
  refine Nat.mul_le_mul_right _ ?_
  calc j * m.winSizeX + i + 1 ≤ j * m.winSizeX + m.winSizeX := by omega
    _ = (j + 1) * m.winSizeX := (Nat.succ_mul j m.winSizeX).symm
    _ ≤ m.winSizeY * m.winSizeX := Nat.mul_le_mul_right _ row

lemma bytesPP_pos (f : Format) : 0 < f.bytesPP := by
  cases f <;> decide

lemma offset_inj {m : Mode} {i j i' j' b b' : Nat} (column : i < m.winSizeX)
    (column' : i' < m.winSizeX) (byte : b < m.format.bytesPP) (byte' : b' < m.format.bytesPP)
    (same : m.offset i j + b = m.offset i' j' + b') : i = i' ∧ j = j' ∧ b = b' := by
  have split {a c a' c' n : Nat} (low : c < n) (low' : c' < n) (eq : a * n + c = a' * n + c') :
      a = a' ∧ c = c' := by
    have pos : 0 < n := Nat.zero_lt_of_lt low
    have quotient := congrArg (· / n) eq
    rw [mul_comm a, mul_comm a', Nat.mul_add_div pos, Nat.mul_add_div pos,
      Nat.div_eq_of_lt low, Nat.div_eq_of_lt low'] at quotient
    have first : a = a' := by omega
    subst first
    exact ⟨rfl, by omega⟩
  obtain ⟨pixel, bytes⟩ := split byte byte' same
  obtain ⟨rows, columns⟩ := split column column' pixel
  exact ⟨columns, rows, bytes⟩

lemma ofNat_offset {i j : Nat} (column : i < m.winSizeX) (row : j < m.winSizeY) :
    (UInt32.ofNat (m.offset i j)).toNat = m.offset i j := by
  have inside := offset_inside column row
  have fits := m.fits
  rw [UInt32.toNat_ofNat']
  exact Nat.mod_eq_of_lt (by omega)

lemma offset_eq (m : Mode) (i j : Nat) : UInt32.ofNat (m.offset i j) =
    UInt32.ofNat j * UInt32.ofNat m.winSizeX * UInt32.ofNat m.format.bytesPP +
      UInt32.ofNat i * UInt32.ofNat m.format.bytesPP := by
  rw [Mode.offset, add_mul, UInt32.ofNat_add, UInt32.ofNat_mul, UInt32.ofNat_mul,
    UInt32.ofNat_mul]

lemma back_up (m : Mode) (i j w : Nat) :
    UInt32.ofNat (m.offset i (j + 1)) + UInt32.ofNat (w * m.format.bytesPP) -
      UInt32.ofNat ((m.winSizeX + w) * m.format.bytesPP) = UInt32.ofNat (m.offset i j) := by
  rw [offset_succ, ← UInt32.ofNat_add, add_assoc, ← add_mul, UInt32.ofNat_add,
    UInt32.add_sub_cancel]

lemma toUInt32_eq (w : UInt16) : w.toUInt32 = UInt32.ofNat w.toNat := by
  have low := w.toNat_lt
  apply UInt32.toNat_inj.mp
  rw [UInt16.toNat_toUInt32, UInt32.toNat_ofNat']
  exact (Nat.mod_eq_of_lt (by omega)).symm

lemma mem_cells {p : Plan} {w n x top : Nat} (size : p.pixelSize = m.format.bytesPP)
    (xcount : p.xcount.toNat = w)
    (back : p.back = UInt32.ofNat ((m.winSizeX + w) * m.format.bytesPP)) (above : n ≤ top + 1)
    (bmap : UInt32) (c : UInt32 × Nat) :
    c ∈ cells p n bmap (UInt32.ofNat (m.offset x top)) ↔ ∃ r < n, ∃ t < w,
      c = (UInt32.ofNat (m.offset (x + t) (top - r)), p.pixel (bmap +
        UInt32.ofNat (r * (w * p.pixelBytes + p.padded_line.toNat) + t * p.pixelBytes))) := by
  induction n generalizing top bmap with
  | zero =>
    refine iff_of_false List.not_mem_nil ?_
    rintro ⟨r, less, -⟩
    exact absurd less (Nat.not_lt_zero r)
  | succ n ih =>
    have first : c ∈ rowCells p w bmap (UInt32.ofNat (m.offset x top)) ↔ ∃ t < w,
        c = (UInt32.ofNat (m.offset (x + t) top),
          p.pixel (bmap + UInt32.ofNat (t * p.pixelBytes))) := by
      simp only [rowCells, List.mem_map, List.mem_range, offset_add, UInt32.ofNat_add, size,
        eq_comm (a := c)]
    have rest : c ∈ cells p n
        (bmap + UInt32.ofNat (w * p.pixelBytes) + p.padded_line.toUInt32)
        (UInt32.ofNat (m.offset x top) + UInt32.ofNat (w * p.pixelSize) - p.back) ↔
        ∃ r < n, ∃ t < w, c = (UInt32.ofNat (m.offset (x + t) (top - (r + 1))), p.pixel (bmap +
          UInt32.ofNat ((r + 1) * (w * p.pixelBytes + p.padded_line.toNat) +
            t * p.pixelBytes))) := by
      cases n with
      | zero =>
        refine iff_of_false List.not_mem_nil ?_
        rintro ⟨r, less, -⟩
        exact absurd less (Nat.not_lt_zero r)
      | succ n =>
        obtain ⟨top, rfl⟩ := Nat.exists_eq_succ_of_ne_zero (by omega : top ≠ 0)
        rw [size, back, back_up, toUInt32_eq, UInt32.add_assoc, ← UInt32.ofNat_add, ih (by omega)]
        simp only [UInt32.add_assoc, ← UInt32.ofNat_add, Nat.succ_mul, Nat.add_assoc,
          Nat.add_comm, Nat.add_left_comm, Nat.succ_eq_add_one, Nat.add_sub_add_right]
    rw [cells, List.mem_append, xcount, first, rest]
    constructor
    · rintro (⟨t, less, same⟩ | ⟨r, few, t, less, same⟩)
      · refine ⟨0, Nat.succ_pos n, t, less, ?_⟩
        rw [zero_mul, zero_add]
        exact same
      · exact ⟨r + 1, Nat.succ_lt_succ few, t, less, same⟩
    · rintro ⟨r, few, t, less, same⟩
      cases r with
      | zero =>
        rw [zero_mul, zero_add] at same
        exact .inl ⟨t, less, same⟩
      | succ r => exact .inr ⟨r, Nat.lt_of_succ_lt_succ few, t, less, same⟩

/-- A rectangle of `w` by `n` pixels at `(x, y)` is drawn. -/
structure Drawn (m : Mode) (value : Nat → Nat → Nat) (x y w n : Nat) (s s' : Screen) : Prop where
  touched : ∀ t ∈ s'.touched, t ∈ s.touched ∨
    0 ≤ t.1 ∧ t.1 + t.2 ≤ m.winSizeY * m.winSizeX * m.format.bytesPP
  pixel : ∀ i < w, ∀ j < n, ∀ b < m.format.bytesPP,
    s'.frame (m.offset (x + i) (y + j) + b : Nat) = LittleEndian.byte (value i j) b
  others : ∀ a : Int, (∀ i < w, ∀ j < n, ∀ b < m.format.bytesPP,
    a ≠ (m.offset (x + i) (y + j) + b : Nat)) → s'.frame a = s.frame a

lemma plots_drawn {value : Nat → Nat → Nat} {x y w n : Nat} {plots : List (UInt32 × Nat)}
    (columns : x + w ≤ m.winSizeX) (rows : y + n ≤ m.winSizeY)
    (member : ∀ c, c ∈ plots ↔ ∃ i < w, ∃ j < n,
      c = (UInt32.ofNat (m.offset (x + i) (y + j)), value i j)) (s : Screen) :
    Drawn m value x y w n s (plots.foldl (plot m.format.bytesPP) s) := by
  have place {i j : Nat} (column : i < w) (row : j < n) :
      (UInt32.ofNat (m.offset (x + i) (y + j))).toNat = m.offset (x + i) (y + j) :=
    ofNat_offset (by omega) (by omega)
  constructor
  · intro t there
    rw [plots_touched] at there
    rcases List.mem_append.mp there with before | now
    · exact .inl before
    obtain ⟨c, drawn, rfl⟩ := List.mem_map.mp now
    obtain ⟨i, column, j, row, rfl⟩ := (member c).mp drawn
    have inside := offset_inside (m := m) (by omega : x + i < m.winSizeX)
      (by omega : y + j < m.winSizeY)
    refine .inr ⟨Int.natCast_nonneg _, ?_⟩
    dsimp only
    rw [place column row]
    exact_mod_cast inside
  · intro i column j row b byte
    have drawn := (member _).mpr ⟨i, column, j, row, rfl⟩
    have covers : Covers m.format.bytesPP
        (UInt32.ofNat (m.offset (x + i) (y + j)), value i j)
        (m.offset (x + i) (y + j) + b : Nat) := by
      rw [Covers, place column row]
      omega
    obtain ⟨c, there, covered, found⟩ := @plots_covered _ plots s _ _ drawn covers
    obtain ⟨i', column', j', row', rfl⟩ := (member c).mp there
    rw [Covers, place column' row'] at covered
    rw [found, place column' row']
    obtain ⟨b', same⟩ : ∃ b', m.offset (x + i) (y + j) + b = m.offset (x + i') (y + j') + b' :=
      ⟨m.offset (x + i) (y + j) + b - m.offset (x + i') (y + j'), by omega⟩
    obtain ⟨columns', rows', rfl⟩ := offset_inj (by omega) (by omega) byte (by omega) same
    obtain rfl : i = i' := by omega
    obtain rfl : j = j' := by omega
    congr 1
    omega
  · intro a elsewhere
    refine plots_uncovered fun c there covered => ?_
    obtain ⟨i, column, j, row, rfl⟩ := (member c).mp there
    rw [Covers, place column row] at covered
    refine elsewhere i column j row (a - m.offset (x + i) (y + j)).toNat (by omega) ?_
    omega

lemma draw_drawn {m : Mode} {bmp : Bmp} {x y width height : UInt32}
    (bits : bmp.header.bit_count = 8 ∨ bmp.header.bit_count = 24) (some_rows : 0 < height.toNat)
    (columns : x.toNat + width.toNat ≤ m.winSizeX) (rows : y.toNat + height.toNat ≤ m.winSizeY)
    (less : width.toNat ≤ bmp.header.width.toNat) (s : Screen) :
    Drawn m (fun i j => (bmp.pixel m.format (bmp.addr + bmp.header.data_offset + UInt32.ofNat
        ((height.toNat - 1 - j) * bmp.header.advance width.toNat +
          i * bmp.header.pixelBytes))).getD 0)
      x.toNat y.toNat width.toNat height.toNat s (draw m bmp x y width height s) := by
  have wide := m.winSizeX_lt
  have high := m.winSizeY_lt
  have start : (y + height - 1) * UInt32.ofNat m.winSizeX * UInt32.ofNat m.format.bytesPP +
      x * UInt32.ofNat m.format.bytesPP =
        UInt32.ofNat (m.offset x.toNat (y.toNat + height.toNat - 1)) := by
    rw [offset_eq, UInt32.ofNat_sub (by omega), UInt32.ofNat_add, UInt32.ofNat_toNat,
      UInt32.ofNat_toNat, UInt32.ofNat_toNat]
    rfl
  have count (v : UInt32) (low : v.toNat < 65536) : v.toUInt16.toNat = v.toNat := by
    rw [toUInt16_toNat]
    exact Nat.mod_eq_of_lt low
  have back : (bmp.plan m width).back =
      UInt32.ofNat ((m.winSizeX + width.toNat) * m.format.bytesPP) := by
    rw [UInt32.ofNat_mul, UInt32.ofNat_add, UInt32.ofNat_toNat]
    rfl
  rw [draw, drawRows_screen]
  rw [start, count height (by omega)]
  refine plots_drawn columns rows (fun c => ?_) s
  rw [mem_cells rfl (count width (by omega)) back (by omega)]
  rw [plan_padded bits less (by omega)]
  constructor
  · rintro ⟨r, row, t, column, rfl⟩
    refine ⟨t, column, height.toNat - 1 - r, by omega, ?_⟩
    rw [show height.toNat - 1 - (height.toNat - 1 - r) = r by omega,
      show y.toNat + (height.toNat - 1 - r) = y.toNat + height.toNat - 1 - r by omega]
    rfl
  · rintro ⟨i, column, j, row, rfl⟩
    refine ⟨height.toNat - 1 - j, by omega, i, column, ?_⟩
    rw [show y.toNat + height.toNat - 1 - (height.toNat - 1 - j) = y.toNat + j by omega]
    rfl

end Bitmap
