import UBoot.Video.Bitmap

/-!
# When a bitmap is displayed

What is drawn begins with the first rows that are stored, which are the bottom ones: it is right
only for a bitmap that is not cut off there.
-/

namespace Bitmap

open Video

/-! ## What is returned -/

lemma copyColormap_endless {colors : UInt32} (many : 65536 ≤ colors.toNat) (fuel : Nat)
    (xcount : UInt16) : copyColormap colors fuel xcount = none := by
  induction fuel generalizing xcount with
  | zero => rfl
  | succ fuel ih =>
    have low := xcount.toNat_lt
    have less : xcount.toUInt32 < colors := by
      rw [UInt32.lt_iff_toNat_lt, UInt16.toNat_toUInt32]
      omega
    rw [copyColormap, if_pos less]
    exact ih (xcount + 1)

lemma copyColormap_ends {colors : UInt32} (few : colors.toNat < 65536) (left : Nat)
    (xcount : UInt16) (enough : colors.toNat ≤ xcount.toNat + left) :
    copyColormap colors (left + 1) xcount = some () := by
  induction left generalizing xcount with
  | zero =>
    refine if_neg ?_
    rw [UInt32.lt_iff_toNat_lt, UInt16.toNat_toUInt32]
    omega
  | succ left ih =>
    rw [copyColormap]
    split
    · next less =>
      rw [UInt32.lt_iff_toNat_lt, UInt16.toNat_toUInt32] at less
      refine ih (xcount + 1) ?_
      rw [UInt16.toNat_add]
      change colors.toNat ≤ (xcount.toNat + 1) % 65536 + left
      omega
    · rfl

def drawn (m : Mode) (bmp : Bmp) (x y : Nat) (s : Screen) : Screen :=
  draw m bmp (UInt32.ofInt x) (UInt32.ofInt y)
    (clip (UInt32.ofInt x) bmp.header.width (UInt32.ofNat m.winSizeX))
    (clip (UInt32.ofInt y) bmp.header.height (UInt32.ofNat m.winSizeY)) s

section Returned

variable {m : Mode} {bmp : Bmp} {x y : Nat} {s : Screen} {fuel : Nat}

lemma returned_refused (valid : Valid bmp.addr bmp.header) (refused : Refused m bmp.header) :
    videoDisplayBitmap m bmp x y s fuel = some (0, s) := by
  obtain ⟨many, index⟩ := refused
  have other : bmp.header.bit_count ≠ 8 := by
    rw [many]
    decide
  unfold videoDisplayBitmap
  rw [if_neg (not_not.mpr valid.signature), if_neg (not_not.mpr valid.compression), if_neg other,
    if_pos many, if_pos index]

lemma returned_drawn (valid : Valid bmp.addr bmp.header) (shown : ¬Refused m bmp.header) :
    videoDisplayBitmap m bmp x y s fuel =
      if bmp.header.bit_count = 8 ∧ m.format = .index8 then
        (copyColormap bmp.header.colors_used fuel 0).map fun _ => (0, drawn m bmp x y s)
      else some (0, drawn m bmp x y s) := by
  unfold videoDisplayBitmap
  rw [if_neg (not_not.mpr valid.signature), if_neg (not_not.mpr valid.compression)]
  rcases valid.bits with eight | many
  · rw [if_pos eight]
    split
    · next index => exact (if_pos ⟨eight, index⟩).symm
    · next direct => exact (if_neg fun both => direct both.2).symm
  · have other : bmp.header.bit_count ≠ 8 := by
      rw [many]
      decide
    rw [if_neg other, if_pos many, if_neg fun index => shown ⟨many, index⟩,
      if_neg fun both => other both.1]
    rfl

lemma returns_drawn_iff (valid : Valid bmp.addr bmp.header) (shown : ¬Refused m bmp.header)
    (P : Screen → Prop) :
    (∃ fuel r, videoDisplayBitmap m bmp x y s fuel = some (0, r) ∧ P r) ↔
      (bmp.header.bit_count = 8 → m.format = .index8 → bmp.header.colors_used.toNat < 65536) ∧
        P (drawn m bmp x y s) := by
  constructor
  · rintro ⟨fuel, r, returned, holds⟩
    rw [returned_drawn valid shown] at returned
    split at returned
    · next both =>
      obtain ⟨_, ended, same⟩ := Option.map_eq_some_iff.mp returned
      obtain rfl := (Prod.mk.inj same).2
      refine ⟨fun _ _ => ?_, holds⟩
      by_contra many
      rw [copyColormap_endless (by omega)] at ended
      cases ended
    · next direct =>
      obtain rfl := (Prod.mk.inj (Option.some.inj returned)).2
      exact ⟨fun eight index => absurd ⟨eight, index⟩ direct, holds⟩
  · rintro ⟨few, holds⟩
    refine ⟨bmp.header.colors_used.toNat + 1, _, ?_, holds⟩
    rw [returned_drawn valid shown]
    split
    · next both =>
      rw [copyColormap_ends (few both.1 both.2) _ 0 (Nat.le_add_left _ _)]
      rfl
    · rfl

end Returned

variable {h : Header}

lemma pixel_refused {m : Mode} {bmp : Bmp} (refused : Refused m bmp.header) (bmap : UInt32) :
    bmp.pixel m.format bmap = none := by
  have other : bmp.header.bit_count ≠ 8 := by
    rw [refused.1]
    decide
  rw [Bmp.pixel, if_neg other, refused.2]
  rfl

lemma fill_some {f : Format} (direct : f ≠ .index8) (c : Color) :
    fill f c = some ((fill f c).getD 0) := by
  cases f
  · exact absurd rfl direct
  all_goals rfl

lemma pixel_some {m : Mode} {bmp : Bmp}
    (bits : bmp.header.bit_count = 8 ∨ bmp.header.bit_count = 24)
    (shown : ¬Refused m bmp.header) (bmap : UInt32) :
    bmp.pixel m.format bmap = some ((bmp.pixel m.format bmap).getD 0) := by
  rw [Bmp.pixel]
  rcases bits with eight | many
  · rw [if_pos eight]
    split
    · rfl
    · next direct => exact fill_some direct _
  · have other : bmp.header.bit_count ≠ 8 := by
      rw [many]
      decide
    rw [if_neg other]
    exact fill_some (fun index => shown ⟨many, index⟩) _

lemma displays_refused {m : Mode} {addr : UInt32} {x y : Nat} (valid : Valid addr h)
    (refused : Refused m h) : Displays m addr h x y := by
  intro color_table mem frame
  refine ⟨0, _, @returned_refused m ⟨addr, h, color_table, mem⟩ _ _ _ _ valid refused, ?_, ?_, ?_⟩
  · exact nofun
  · intro i j v _ value
    have none := @pixel_refused m ⟨addr, h, color_table, mem⟩ refused
    rw [Bmp.pixelAt, none] at value
    cases value
  · exact fun _ _ => rfl

def DrawsRight (m : Mode) (addr : UInt32) (h : Header) (x y : Nat) : Prop :=
  ∀ color_table mem frame, Right m ⟨addr, h, color_table, mem⟩ x y frame
    (drawn m ⟨addr, h, color_table, mem⟩ x y ⟨frame, []⟩)

lemma displays_iff {m : Mode} {addr : UInt32} {x y : Nat} (valid : Valid addr h)
    (shown : ¬Refused m h) : Displays m addr h x y ↔
      (h.bit_count = 8 → m.format = .index8 → h.colors_used.toNat < 65536) ∧
        DrawsRight m addr h x y := by
  have each (color_table : UInt8 → Color) (mem : UInt32 → UInt8) (frame : Int → UInt8) :=
    @returns_drawn_iff m ⟨addr, h, color_table, mem⟩ x y ⟨frame, []⟩ valid shown
      (Right m ⟨addr, h, color_table, mem⟩ x y frame)
  constructor
  · intro displays
    refine ⟨((each (fun _ => ⟨0, 0, 0⟩) (fun _ => 0) fun _ => 0).mp (displays _ _ _)).1, ?_⟩
    intro color_table mem frame
    exact ((each color_table mem frame).mp (displays _ _ _)).2
  · rintro ⟨few, draws⟩ color_table mem frame
    exact (each color_table mem frame).mpr ⟨few, draws _ _ _⟩

/-! ## Bitmaps beside the screen -/

lemma ofInt_toNat {x : Nat} (low : x < 2147483648) : (UInt32.ofInt x).toNat = x := by
  rw [UInt32.ofInt, UInt32.toNat_ofNat']
  omega

lemma ofNat_toNat_of_lt {n : Nat} (low : n < 65536) : (UInt32.ofNat n).toNat = n := by
  rw [UInt32.toNat_ofNat']
  exact Nat.mod_eq_of_lt (by omega)

def dark (addr : UInt32) (h : Header) : Bmp := ⟨addr, h, fun _ => ⟨0, 0, 0⟩, fun _ => 0⟩

lemma fill_black (f : Format) : (fill f ⟨0, 0, 0⟩).getD 0 = 0 := by
  cases f <;> rfl

lemma pixel_dark (addr : UInt32) (h : Header) (f : Format) (bmap : UInt32) :
    ((dark addr h).pixel f bmap).getD 0 = 0 := by
  unfold Bmp.pixel
  split
  · split
    · rfl
    · exact fill_black f
  · exact fill_black f

section Beside

variable {m : Mode} {addr : UInt32} {h : Header} {x y : Nat} {width height : UInt32}

lemma first_row_onScreen {X Y : UInt32} (right : Right m (dark addr h) x y (fun _ => 255)
      (draw m (dark addr h) X Y width height ⟨fun _ => 255, []⟩))
    (some_rows : height.toUInt16.toNat ≠ 0) {t : Nat} (column : t < width.toUInt16.toNat) :
    ∃ i j b, OnScreen m h x y i j ∧ b < m.format.bytesPP ∧
      ((Y + height - 1) * UInt32.ofNat m.winSizeX * UInt32.ofNat m.format.bytesPP +
          X * UInt32.ofNat m.format.bytesPP + UInt32.ofNat (t * m.format.bytesPP)).toNat =
        m.offset (x + i) (y + j) + b := by
  set start := (Y + height - 1) * UInt32.ofNat m.winSizeX * UInt32.ofNat m.format.bytesPP +
    X * UInt32.ofNat m.format.bytesPP
  set place := start + UInt32.ofNat (t * m.format.bytesPP) with place_eq
  obtain ⟨rows, some_left⟩ := Nat.exists_eq_succ_of_ne_zero some_rows
  have drawn : (place, 0) ∈ cells ((dark addr h).plan m width) height.toUInt16.toNat
      (addr + h.data_offset) start := by
    rw [some_left, cells, List.mem_append]
    refine .inl (List.mem_map.mpr ⟨t, List.mem_range.mpr column, ?_⟩)
    exact congrArg (Prod.mk place) (pixel_dark addr h m.format _)
  have black : ∀ c ∈ cells ((dark addr h).plan m width) height.toUInt16.toNat
      (addr + h.data_offset) start, c.2 = 0 := by
    have rowwise (n : Nat) (bmap fb : UInt32) :
        ∀ c ∈ cells ((dark addr h).plan m width) n bmap fb, c.2 = 0 := by
      induction n generalizing bmap fb with
      | zero => exact fun c there => absurd there List.not_mem_nil
      | succ n ih =>
        intro c there
        rcases List.mem_append.mp there with now | later
        · obtain ⟨t, -, rfl⟩ := List.mem_map.mp now
          exact pixel_dark addr h m.format _
        · exact ih _ _ c later
    exact rowwise _ _ _
  have pos := bytesPP_pos m.format
  have covers : Covers m.format.bytesPP (place, 0) place.toNat := ⟨le_refl _, by dsimp only; omega⟩
  obtain ⟨c, there, -, zero⟩ :=
    @plots_covered m.format.bytesPP _ ⟨fun _ => 255, []⟩ _ _ drawn covers
  by_contra nowhere
  have kept := right.others place.toNat fun i j v b seen _ byte same =>
    nowhere ⟨i, j, b, seen, byte, by exact_mod_cast same⟩
  rw [draw, drawRows_screen] at kept
  rw [black c there] at zero
  have same := zero.symm.trans kept
  rw [LittleEndian.byte, Nat.zero_shiftRight] at same
  exact absurd same (by decide)

lemma beside_iff (low : x < 2147483648) (low' : y < 2147483648)
    (beside : ¬(x < m.winSizeX ∧ y < m.winSizeY ∧ 0 < h.width.toNat ∧ 0 < h.height.toNat)) :
    DrawsRight m addr h x y ↔
      Skipped x h.width.toNat m.winSizeX ∨ Skipped y h.height.toNat m.winSizeY := by
  have wide := ofNat_toNat_of_lt m.winSizeX_lt
  have high := ofNat_toNat_of_lt m.winSizeY_lt
  have columns := clip_skipped (UInt32.ofInt x) h.width (UInt32.ofNat m.winSizeX)
  have rows := clip_skipped (UInt32.ofInt y) h.height (UInt32.ofNat m.winSizeY)
  rw [ofInt_toNat low, wide] at columns
  rw [ofInt_toNat low', high] at rows
  rw [← columns, ← rows]
  have unseen (i j : Nat) : ¬OnScreen m h x y i j := fun seen =>
    beside ⟨by have := seen.2.2.1; omega, by have := seen.2.2.2; omega,
      Nat.zero_lt_of_lt seen.1, Nat.zero_lt_of_lt seen.2.1⟩
  constructor
  · intro draws
    by_contra some_left
    obtain ⟨column, row⟩ := not_or.mp some_left
    obtain ⟨i, j, b, seen, -⟩ := first_row_onScreen (draws (fun _ => ⟨0, 0, 0⟩) (fun _ => 0)
      fun _ => 255) row (pos_of_ne_zero column)
    exact unseen i j seen
  · intro skipped color_table mem frame
    have nothing : drawn m ⟨addr, h, color_table, mem⟩ x y ⟨frame, []⟩ = ⟨frame, []⟩ := by
      have empty (p : Plan) (none : p.xcount.toNat = 0) (n : Nat) (bmap fb : UInt32) :
          cells p n bmap fb = [] := by
        induction n generalizing bmap fb with
        | zero => rfl
        | succ n ih =>
          rw [cells, none, ih]
          rfl
      rw [drawn, draw, drawRows_screen]
      rcases skipped with column | row
      · rw [empty _ column]
        rfl
      · dsimp only
        rw [row]
        rfl
    rw [nothing]
    refine ⟨fun _ member => absurd member List.not_mem_nil, fun i j v seen => ?_, fun _ _ => rfl⟩
    exact absurd seen (unseen i j)

end Beside

/-! ## Bitmaps on the screen -/

/-- Something of the bitmap is on the screen, and its sides do not run over. -/
structure Seen (m : Mode) (h : Header) (x y : Nat) : Prop where
  column : x < m.winSizeX
  row : y < m.winSizeY
  width : 0 < h.width.toNat
  height : 0 < h.height.toNat
  right : x + h.width.toNat < 4294967296
  bottom : y + h.height.toNat < 4294967296

def Header.seenX (h : Header) (m : Mode) (x : Nat) : Nat := min h.width.toNat (m.winSizeX - x)

lemma seenX_le (h : Header) (m : Mode) (x : Nat) : h.seenX m x ≤ h.width.toNat :=
  min_le_left _ _

def Header.seenY (h : Header) (m : Mode) (y : Nat) : Nat := min h.height.toNat (m.winSizeY - y)

section Seen

variable {m : Mode} {bmp : Bmp} {x y : Nat}

/-- What the bitmap is read for: `advance` instead of the bytes of a row, and the first rows that
are stored, which are the bottom ones. -/
def Bmp.read (bmp : Bmp) (m : Mode) (x y i j : Nat) : UInt32 :=
  bmp.addr + bmp.header.data_offset + UInt32.ofNat
    ((bmp.header.seenY m y - 1 - j) * bmp.header.advance (bmp.header.seenX m x) +
      i * bmp.header.pixelBytes)

lemma Seen.draws (seen : Seen m bmp.header x y)
    (bits : bmp.header.bit_count = 8 ∨ bmp.header.bit_count = 24) (s : Screen) :
    Drawn m (fun i j => (bmp.pixel m.format (bmp.read m x y i j)).getD 0) x y
      (bmp.header.seenX m x) (bmp.header.seenY m y) s (drawn m bmp x y s) := by
  have column := seen.column
  have row := seen.row
  have wide := ofNat_toNat_of_lt m.winSizeX_lt
  have high := ofNat_toNat_of_lt m.winSizeY_lt
  have x_lt := m.winSizeX_lt
  have y_lt := m.winSizeY_lt
  have left := ofInt_toNat (by omega : x < 2147483648)
  have top := ofInt_toNat (by omega : y < 2147483648)
  have width := @clip_visible (UInt32.ofInt x) bmp.header.width (UInt32.ofNat m.winSizeX)
    (by omega) (by rw [left]; exact seen.right)
  have height := @clip_visible (UInt32.ofInt y) bmp.header.height (UInt32.ofNat m.winSizeY)
    (by omega) (by rw [top]; exact seen.bottom)
  rw [left, wide] at width
  rw [top, high] at height
  have some_rows := seen.height
  have done := @draw_drawn m bmp (UInt32.ofInt x) (UInt32.ofInt y)
    (clip (UInt32.ofInt x) bmp.header.width (UInt32.ofNat m.winSizeX))
    (clip (UInt32.ofInt y) bmp.header.height (UInt32.ofNat m.winSizeY)) bits
    (by rw [height]; omega) (by rw [left, width]; omega) (by rw [top, height]; omega)
    (by rw [width]; omega) s
  rw [left, top, width, height] at done
  exact done

lemma seen_onScreen {i j : Nat} (column : x < m.winSizeX) (row : y < m.winSizeY) :
    OnScreen m h x y i j ↔ i < h.seenX m x ∧ j < h.seenY m y := by
  unfold OnScreen Header.seenX Header.seenY
  omega

lemma Seen.right_of_reads (seen : Seen m bmp.header x y)
    (bits : bmp.header.bit_count = 8 ∨ bmp.header.bit_count = 24) (shown : ¬Refused m bmp.header)
    (reads : ∀ i j, OnScreen m bmp.header x y i j →
      bmp.pixelAt m.format i j = bmp.pixel m.format (bmp.read m x y i j))
    (frame : Int → UInt8) : Right m bmp x y frame (drawn m bmp x y ⟨frame, []⟩) := by
  have done := seen.draws bits ⟨frame, []⟩
  constructor
  · intro t there
    exact (done.touched t there).resolve_left List.not_mem_nil
  · intro i j v inside value b byte
    obtain ⟨column, row⟩ := (seen_onScreen seen.column seen.row).mp inside
    rw [reads i j inside] at value
    rw [done.pixel i column j row b byte, value]
    rfl
  · intro a elsewhere
    refine done.others a fun i column j row b byte => ?_
    have inside := (seen_onScreen seen.column seen.row).mpr ⟨column, row⟩
    refine elsewhere i j ((bmp.pixel m.format (bmp.read m x y i j)).getD 0) b inside ?_ byte
    rw [reads i j inside]
    exact pixel_some bits shown _

end Seen

lemma drawn_le_stride {w : Nat} (less : w ≤ h.width.toNat) :
    w * h.pixelBytes ≤ h.stride :=
  (Nat.mul_le_mul_right _ less).trans (stride_ge h)

lemma advance_eq {w : Nat} (less : w ≤ h.width.toNat) (few : h.stride < w * h.pixelBytes + 65536) :
    h.advance w = h.stride := by
  have drawn := drawn_le_stride less
  rw [Header.advance, Nat.mod_eq_of_lt (by omega)]
  omega

lemma advance_le {w : Nat} (less : w ≤ h.width.toNat) : h.advance w ≤ h.stride := by
  have drawn := drawn_le_stride less
  rw [Header.advance]
  omega

lemma drawsRight_of_whole {m : Mode} {addr : UInt32} {x y : Nat} (seen : Seen m h x y)
    (bits : h.bit_count = 8 ∨ h.bit_count = 24) (shown : ¬Refused m h)
    (whole : y + h.height.toNat ≤ m.winSizeY)
    (row : h.height.toNat = 1 ∨ h.stride < h.seenX m x * h.pixelBytes + 65536) :
    DrawsRight m addr h x y := by
  intro color_table mem frame
  refine @Seen.right_of_reads m ⟨addr, h, color_table, mem⟩ x y seen bits shown
    (fun i j inside => ?_) frame
  have rows : h.seenY m y = h.height.toNat := min_eq_left (by omega)
  rw [Bmp.pixelAt, Bmp.read]
  rw [rows]
  rcases row with one | few
  · rw [one, show 1 - 1 - j = 0 by omega, zero_mul, zero_mul]
  · rw [advance_eq (seenX_le h m x) few]

/-! ## What is drawn too far to the right, or from another row -/

section Wrong

variable {m : Mode} {addr : UInt32} {h : Header} {x y : Nat}

lemma width_of_right (valid : Valid addr h) (column : x < m.winSizeX) (row : y < m.winSizeY)
    (rows : 0 < h.height.toNat) (draws : DrawsRight m addr h x y) :
    x + h.width.toNat < 4294967296 := by
  by_contra wraps
  have width := h.width.toNat_lt
  have x_lt := m.winSizeX_lt
  have y_lt := m.winSizeY_lt
  have wide := ofNat_toNat_of_lt m.winSizeX_lt
  have high := ofNat_toNat_of_lt m.winSizeY_lt
  have left := ofInt_toNat (by omega : x < 2147483648)
  have top := ofInt_toNat (by omega : y < 2147483648)
  -- there is no memory for two rows
  have one : h.height.toNat = 1 := by
    have long : h.width.toNat ≤ h.stride :=
      (Nat.le_mul_of_pos_right _ (pixelBytes_le h).1).trans (stride_ge h)
    have memory := valid.memory
    by_contra many
    have two : 2 * h.stride ≤ h.height.toNat * h.stride := Nat.mul_le_mul_right _ (by omega)
    omega
  have uncut : (clip (UInt32.ofInt x) h.width (UInt32.ofNat m.winSizeX)).toNat = h.width.toNat := by
    rw [clip_toNat, left, wide]
    exact if_neg (by omega)
  have single : (clip (UInt32.ofInt y) h.height (UInt32.ofNat m.winSizeY)).toNat = 1 := by
    rw [clip_toNat, top, high, one]
    exact if_neg (by omega)
  obtain ⟨i, j, b, seen, byte, place⟩ := @first_row_onScreen m addr h x y _ _ _ _
    (draws (fun _ => ⟨0, 0, 0⟩) (fun _ => 0) fun _ => 255)
    (by rw [toUInt16_toNat, single]; decide) (m.winSizeX - x)
    (by rw [toUInt16_toNat, uncut]; omega)
  have first : UInt32.ofInt y + clip (UInt32.ofInt y) h.height (UInt32.ofNat m.winSizeY) - 1 =
      UInt32.ofInt y := by
    rw [show clip (UInt32.ofInt y) h.height (UInt32.ofNat m.winSizeY) = 1 from
      UInt32.toNat_inj.mp single, UInt32.add_sub_cancel]
  have next : UInt32.ofInt y * UInt32.ofNat m.winSizeX * UInt32.ofNat m.format.bytesPP +
      UInt32.ofInt x * UInt32.ofNat m.format.bytesPP +
        UInt32.ofNat ((m.winSizeX - x) * m.format.bytesPP) =
      UInt32.ofNat (m.offset 0 (y + 1)) := by
    have end_of_row : m.offset 0 (y + 1) = m.offset (x + (m.winSizeX - x)) y := by
      rw [offset_succ, show x + (m.winSizeX - x) = 0 + m.winSizeX by omega, offset_add]
    have across : UInt32.ofNat x = UInt32.ofInt x :=
      UInt32.toNat_inj.mp ((ofNat_toNat_of_lt (by omega)).trans left.symm)
    have down : UInt32.ofNat y = UInt32.ofInt y :=
      UInt32.toNat_inj.mp ((ofNat_toNat_of_lt (by omega)).trans top.symm)
    rw [end_of_row, offset_add, UInt32.ofNat_add, offset_eq, across, down]
  have fits := m.fits
  have upper : m.offset 0 (y + 1) ≤ m.winSizeY * m.winSizeX * m.format.bytesPP := by
    rw [Mode.offset, add_zero]
    exact Nat.mul_le_mul_right _ (Nat.mul_le_mul_right _ row)
  rw [first, next, UInt32.toNat_ofNat', Nat.mod_eq_of_lt (by omega)] at place
  have down := seen.2.1
  have pos := bytesPP_pos m.format
  obtain ⟨-, rows', -⟩ := @offset_inj m 0 (y + 1) (x + i) (y + j) 0 b (Nat.zero_lt_of_lt column)
    seen.2.2.1 pos byte place
  omega

def twoTone (addr : UInt32) (h : Header) (edge : Nat) : Bmp :=
  ⟨addr, h, fun i => if i = 0 then ⟨0, 0, 0⟩ else ⟨255, 255, 255⟩,
    fun a => if a.toNat < edge then 0 else 255⟩

lemma fill_white (f : Format) : LittleEndian.byte ((fill f ⟨255, 255, 255⟩).getD 255) 0 = 255 := by
  cases f <;> decide

lemma twoTone_black {edge : Nat} (f : Format) {a : UInt32} (below : a.toNat + 3 ≤ edge)
    (room : a.toNat + 3 ≤ 4294967296) : ((twoTone addr h edge).pixel f a).getD 0 = 0 := by
  have next (k : UInt32) (less : k.toNat < 3) : (twoTone addr h edge).mem (a + k) = 0 := by
    refine if_pos ?_
    rw [UInt32.toNat_add, Nat.mod_eq_of_lt (by omega)]
    omega
  have first := next 0 (by decide)
  rw [UInt32.add_zero] at first
  rw [Bmp.pixel, first, next 1 (by decide), next 2 (by decide)]
  split
  · split
    · rfl
    · exact fill_black f
  · exact fill_black f

lemma twoTone_white {edge : Nat} (f : Format) {a : UInt32} (above : edge ≤ a.toNat)
    (room : a.toNat + 3 ≤ 4294967296) {v : Nat} (value : (twoTone addr h edge).pixel f a = some v) :
    LittleEndian.byte v 0 = 255 := by
  have next (k : UInt32) (less : k.toNat < 3) : (twoTone addr h edge).mem (a + k) = 255 := by
    refine if_neg ?_
    rw [UInt32.toNat_add, Nat.mod_eq_of_lt (by omega)]
    omega
  have first := next 0 (by decide)
  rw [UInt32.add_zero] at first
  have white := fill_white f
  rw [Bmp.pixel, first, next 1 (by decide), next 2 (by decide)] at value
  split at value
  · split at value
    · cases value
      decide
    · rw [show (twoTone addr h edge).color_table 255 = ⟨255, 255, 255⟩ from rfl] at value
      rw [value] at white
      exact white
  · rw [value] at white
    exact white

lemma data_toNat {o : Nat} (room : addr.toNat + h.data_offset.toNat + o < 4294967296) :
    (addr + h.data_offset + UInt32.ofNat o).toNat = addr.toNat + h.data_offset.toNat + o := by
  rw [UInt32.toNat_add, UInt32.toNat_add, UInt32.toNat_ofNat']
  omega

lemma stride_pos (seen : Seen m h x y) : 4 ≤ h.stride := by
  have some_bytes : 1 * 1 ≤ h.width.toNat * h.pixelBytes :=
    Nat.mul_le_mul seen.width (pixelBytes_le h).1
  rw [Header.stride]
  omega

lemma rows_apart {w k l : Nat} (inside : w ≤ h.width.toNat)
    (less : k * h.advance w < l * h.stride) : k * h.advance w + 4 ≤ l * h.stride := by
  have drawn := drawn_le_stride inside
  obtain ⟨words, aligned⟩ : ∃ words, h.stride = words * 4 := ⟨_, rfl⟩
  obtain ⟨words', aligned'⟩ : ∃ words', h.advance w = words' * 4 := by
    refine ⟨h.advance w / 4, ?_⟩
    rw [Header.advance]
    omega
  rw [aligned, aligned', ← mul_assoc, ← mul_assoc] at less ⊢
  omega

lemma corner_of_right (valid : Valid addr h) (seen : Seen m h x y) (shown : ¬Refused m h)
    (draws : DrawsRight m addr h x y) :
    (h.height.toNat - 1) * h.stride ≤ (h.seenY m y - 1) * h.advance (h.seenX m x) := by
  by_contra other
  have apart := rows_apart (seenX_le h m x) (not_le.mp other)
  have memory := valid.memory
  have four := stride_pos seen
  have last : (h.height.toNat - 1) * h.stride + h.stride = h.height.toNat * h.stride := by
    have rows := seen.height
    rw [← Nat.succ_mul]
    congr 1
    omega
  have there := @data_toNat addr h ((h.height.toNat - 1) * h.stride) (by omega)
  have here := @data_toNat addr h ((h.seenY m y - 1) * h.advance (h.seenX m x)) (by omega)
  set edge := addr.toNat + h.data_offset.toNat + (h.height.toNat - 1) * h.stride
  have corner : OnScreen m h x y 0 0 := ⟨seen.width, seen.height, seen.column, seen.row⟩
  obtain ⟨i_seen, j_seen⟩ := (seen_onScreen seen.column seen.row).mp corner
  have pos := bytesPP_pos m.format
  obtain ⟨v, value⟩ : ∃ v, (twoTone addr h edge).pixelAt m.format 0 0 = some v :=
    ⟨_, @pixel_some m (twoTone addr h edge) valid.bits shown _⟩
  have right := (draws _ _ fun _ => 0).shows 0 0 v corner value 0 pos
  have done := (@Seen.draws m (twoTone addr h edge) x y seen valid.bits
    ⟨fun _ => 0, []⟩).pixel 0 i_seen 0 j_seen 0 pos
  have shown_at : (addr + h.data_offset + UInt32.ofNat
      ((h.height.toNat - 1 - 0) * h.stride + 0 * h.pixelBytes)).toNat = edge := by
    rw [Nat.sub_zero, zero_mul, add_zero]
    exact there
  have read_at : ((twoTone addr h edge).read m x y 0 0).toNat =
      addr.toNat + h.data_offset.toNat + (h.seenY m y - 1) * h.advance (h.seenX m x) := by
    rw [Bmp.read, Nat.sub_zero, zero_mul, add_zero]
    exact here
  have white : LittleEndian.byte v 0 = 255 :=
    @twoTone_white addr h edge m.format _ (le_of_eq shown_at.symm) (by omega) v value
  have black := @twoTone_black addr h edge m.format ((twoTone addr h edge).read m x y 0 0)
    (by omega) (by omega)
  rw [black] at done
  have same := (right.trans white).symm.trans done
  rw [LittleEndian.byte, Nat.zero_shiftRight] at same
  exact absurd same (by decide)

lemma whole_of_right (valid : Valid addr h) (seen : Seen m h x y) (shown : ¬Refused m h)
    (draws : DrawsRight m addr h x y) : y + h.height.toNat ≤ m.winSizeY ∧
      (h.height.toNat = 1 ∨ h.stride < h.seenX m x * h.pixelBytes + 65536) := by
  have rows := seen.height
  have row := seen.row
  have four := stride_pos seen
  have short := advance_le (seenX_le h m x)
  have lower := corner_of_right valid seen shown draws
  have up : (h.seenY m y - 1) * h.advance (h.seenX m x) ≤ (h.seenY m y - 1) * h.stride :=
    Nat.mul_le_mul_left _ short
  have all : h.height.toNat - 1 ≤ h.seenY m y - 1 :=
    Nat.le_of_mul_le_mul_right (lower.trans up) (by omega)
  have whole : y + h.height.toNat ≤ m.winSizeY := by
    rw [Header.seenY] at all
    omega
  refine ⟨whole, ?_⟩
  by_cases one : h.height.toNat = 1
  · exact .inl one
  right
  have exact_rows : h.seenY m y = h.height.toNat := min_eq_left (by omega)
  rw [exact_rows] at lower
  have unchanged : h.stride ≤ h.advance (h.seenX m x) :=
    Nat.le_of_mul_le_mul_left lower (by omega)
  rw [Header.advance] at unchanged
  omega

end Wrong

/-! ## When a bitmap is displayed -/

/-- `video_display_bitmap` shows every uncompressed bitmap as it is if and only if it is on the
screen down to its last row, or beside the screen without being drawn. -/
theorem display_bitmap_right_iff {m : Mode} {addr : UInt32} {h : Header} {x y : Nat}
    (valid : Valid addr h) (x_int : x < 2147483648) (y_int : y < 2147483648) :
    Displays m addr h x y ↔ Displayable m h x y := by
  by_cases refused : Refused m h
  · refine iff_of_true (displays_refused valid refused) ⟨fun eight => ?_, .inl refused⟩
    rw [refused.1] at eight
    exact absurd eight (by decide)
  rw [displays_iff valid refused, Displayable, or_iff_right refused]
  refine and_congr_right fun _ => ?_
  split
  · next inside =>
    obtain ⟨column, row, columns, rows⟩ := inside
    have bottom : y + h.height.toNat < 4294967296 := by
      have memory := valid.memory
      have some_bytes : 1 * 1 ≤ h.width.toNat * h.pixelBytes :=
        Nat.mul_le_mul columns (pixelBytes_le h).1
      have four : 4 ≤ h.stride := by
        rw [Header.stride]
        omega
      have total : h.height.toNat * 4 ≤ h.height.toNat * h.stride := Nat.mul_le_mul_left _ four
      have y_lt := m.winSizeY_lt
      omega
    constructor
    · intro draws
      have right := width_of_right valid column row rows draws
      obtain ⟨whole, few⟩ :=
        whole_of_right valid ⟨column, row, columns, rows, right, bottom⟩ refused draws
      exact ⟨whole, right, few⟩
    · rintro ⟨whole, right, few⟩
      exact drawsRight_of_whole ⟨column, row, columns, rows, right, bottom⟩ valid.bits refused
        whole few
  · next beside => exact beside_iff x_int y_int beside

def s3c2440 : Mode := ⟨.rgb565, 320, 240, by decide, by decide, by decide⟩

def trueColor (width height : UInt32) : Header := ⟨(66, 77), 54, width, height, 24, 0, 0⟩

/-- A picture of the size of the screen. -/
theorem splash_displayed : Displays s3c2440 0x32000000 (trueColor 320 240) 0 0 := by
  have valid : Valid 0x32000000 (trueColor 320 240) :=
    ⟨rfl, rfl, .inr rfl, by decide⟩
  refine (display_bitmap_right_iff valid (by decide) (by decide)).mpr ⟨fun eight => ?_, .inr ?_⟩
  · exact absurd eight (by decide)
  · exact ⟨by decide, by decide, .inr (by decide)⟩

def blackOverWhite : Bmp :=
  ⟨0x32000000, trueColor 1 2, fun _ => ⟨0, 0, 0⟩, fun a => if a < 0x3200003a then 255 else 0⟩

/-- In the last row of the screen the lower pixel is shown. -/
theorem cut_off_shows_bottom : ¬Displays s3c2440 0x32000000 (trueColor 1 2) 0 239 ∧
    ∃ r, videoDisplayBitmap s3c2440 blackOverWhite 0 239 ⟨fun _ => 0, []⟩ 0 = some (0, r) ∧
      blackOverWhite.pixelAt .rgb565 0 0 = some 0 ∧ r.frame (s3c2440.offset 0 239) = 255 := by
  refine ⟨fun displays => ?_, _, rfl, by decide +kernel, by decide +kernel⟩
  have valid : Valid 0x32000000 (trueColor 1 2) := ⟨rfl, rfl, .inr rfl, by decide⟩
  have shown : ¬Refused s3c2440 (trueColor 1 2) := fun refused => nomatch refused.2
  have draws := ((displays_iff valid shown).mp displays).2
  have seen : Seen s3c2440 (trueColor 1 2) 0 239 :=
    ⟨by decide, by decide, by decide, by decide, by decide, by decide⟩
  exact absurd (whole_of_right valid seen shown draws).1 (by decide)

end Bitmap
