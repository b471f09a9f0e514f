import OpenMower.Drivers.DisplayUc1698

/-!
# The flush of the display

A rounded area begins and ends with a column of the controller and with a byte of the bitmap, and it
has whole blocks of 24 pixels, so that `LVGLRounderCB` never adds a row (`lvglRounderCb_eq`). The
flush takes each block from three bytes of the bitmap and writes it to twelve bytes of the buffer
(`Encodes.putPairs`), which all in all hold a nibble for each pixel (`display_flush_exact`). They
are sent to a window of this size (`windowCommands_programsWindow`).
-/

namespace OpenMower

open Buffer BitStream DisplayDriver

namespace LvArea

variable {area : LvArea}

/-- The area is on the screen. -/
structure InScreen (area : LvArea) : Prop where
  x1_nonneg : 0 ≤ area.x1
  x1_le : area.x1 ≤ area.x2
  x2_lt : area.x2 < lcdWidth
  y1_nonneg : 0 ≤ area.y1
  y1_le : area.y1 ≤ area.y2
  y2_lt : area.y2 < lcdHeight

/-- The area is on the screen, in whole blocks of 24 columns. -/
structure Rounded (area : LvArea) : Prop extends InScreen area where
  x1_dvd : 24 ∣ area.x1
  x2_dvd : 24 ∣ area.x2 + 1

/-- The first area is in the second one. -/
structure Within (inner outer : LvArea) : Prop where
  x1 : outer.x1 ≤ inner.x1
  y1 : outer.y1 ≤ inner.y1
  x2 : inner.x2 ≤ outer.x2
  y2 : inner.y2 ≤ outer.y2

theorem InScreen.width_pos (h : area.InScreen) : 0 < area.width := by
  have := h.x1_le
  rw [width]
  omega

theorem InScreen.height_pos (h : area.InScreen) : 0 < area.height := by
  have := h.y1_le
  rw [height]
  omega

theorem Rounded.width_dvd (h : area.Rounded) : 24 ∣ area.width := by
  have hx1 := h.x1_dvd
  have hx2 := h.x2_dvd
  rw [width]
  omega

/-- There are whole blocks of pixels. -/
theorem Rounded.pixels_dvd (h : area.Rounded) : 24 ∣ area.pixels :=
  dvd_mul_of_dvd_left h.width_dvd _

end LvArea

open LvArea

/-! ### Rounding -/

/-- **No row is added**: with whole blocks of columns there is no rest. -/
theorem lvglRounderCb_eq {area : LvArea} (h : area.InScreen) : lvglRounderCb area =
    { area with x1 := area.x1 / 24 * 24, x2 := (area.x2 + 24) / 24 * 24 - 1 } := by
  have hx1 : area.x1.tdiv 24 = area.x1 / 24 := Int.tdiv_eq_ediv_of_nonneg h.x1_nonneg
  have hx2 : (area.x2 + 1 + 23).tdiv 24 = (area.x2 + 24) / 24 := by
    have hle := h.x1_nonneg.trans h.x1_le
    rw [Int.tdiv_eq_ediv_of_nonneg (by omega), add_assoc]
    rfl
  have hrest : (((area.x2 + 24) / 24 * 24 - 1 - area.x1 / 24 * 24 + 1) *
      (area.y2 - area.y1 + 1)).tmod 6 = 0 := by
    refine Int.tmod_eq_zero_of_dvd (dvd_mul_of_dvd_left ?_ _)
    omega
  simp only [lvglRounderCb, hx1, hx2, hrest, ne_eq, not_true_eq_false, if_false]

/-- The rounded area is in whole blocks of columns. -/
theorem lvglRounderCb_rounded {area : LvArea} (h : area.InScreen) :
    (lvglRounderCb area).Rounded := by
  have hx1 := h.x1_nonneg
  have hle := h.x1_le
  have hx2 := h.x2_lt
  rw [lcdWidth] at hx2
  rw [lvglRounderCb_eq h]
  refine ⟨⟨?_, ?_, ?_, h.y1_nonneg, h.y1_le, h.y2_lt⟩, ?_, ?_⟩
  · show 0 ≤ area.x1 / 24 * 24
    omega
  · show area.x1 / 24 * 24 ≤ (area.x2 + 24) / 24 * 24 - 1
    omega
  · show (area.x2 + 24) / 24 * 24 - 1 < ((240 : ℕ) : ℤ)
    omega
  · exact Dvd.intro_left _ rfl
  · show 24 ∣ (area.x2 + 24) / 24 * 24 - 1 + 1
    omega

/-- Nothing of an area is lost. -/
theorem within_lvglRounderCb {area : LvArea} (h : area.InScreen) :
    area.Within (lvglRounderCb area) := by
  rw [lvglRounderCb_eq h]
  refine ⟨?_, Int.le_refl _, ?_, Int.le_refl _⟩
  · show area.x1 / 24 * 24 ≤ area.x1
    omega
  · show area.x2 ≤ (area.x2 + 24) / 24 * 24 - 1
    omega

/-! ### The loops -/

/-- The bitmap, behind the palette. -/
def bitmap (pxMap : ℕ → Byte) : ℕ → Byte := fun i => pxMap (8 + i)

/-- The byte of two pixels of the bitmap. -/
def pixelByte (pxMap : ℕ → Byte) (i : ℕ) : Byte :=
  pixelPair (bitAt (bitmap pxMap) (2 * i)) (bitAt (bitmap pxMap) (2 * i + 1))

/-- The pixels that have been written so far, one byte behind the other. -/
structure Encodes (pxMap before : ℕ → Byte) (writes : List ℕ) (o : PixelBuffer) : Prop where
  contents : o.buf.contents = (List.range o.buf.len).map (pixelByte pxMap)
  frame : ∀ i, o.buf.len ≤ i → o.buf.buffer i = before i
  writes : o.writes = writes ++ List.range o.buf.len

namespace Encodes

variable {pxMap before : ℕ → Byte} {writes : List ℕ} {o : PixelBuffer}

theorem put (h : Encodes pxMap before writes o) {b : Byte} (hb : b = pixelByte pxMap o.buf.len) :
    Encodes pxMap before writes (o.put b) where
  contents := by
    simp only [PixelBuffer.put, Writer.contents_put, Writer.put_len, List.range_succ,
      List.map_append, List.map_singleton, h.contents, hb]
  frame := by
    intro i hi
    have hlt : o.buf.len < i := hi
    exact (Function.update_of_ne hlt.ne' _ _).trans (h.frame i hlt.le)
  writes := by
    simp only [PixelBuffer.put, Writer.put_len, List.range_succ, h.writes, List.append_assoc]

/-- The test of a bit. -/
theorem decide_shift_and_one (word : BitVec 32) (i : ℕ) :
    decide ((word >>> i) &&& 0x01#32 ≠ 0#32) = word.getLsbD i := by
  rw [BitVec.and_one_eq_setWidth_ofBool_getLsbD, BitVec.getLsbD_ushiftRight, Nat.add_zero]
  cases word.getLsbD i <;> rfl

/-- **The inner loop** writes the pixels of a block that are left. -/
theorem putPairs (h : Encodes pxMap before writes o) {block pairs : ℕ} (hpairs : pairs ≤ 12)
    (hlen : o.buf.len + pairs = 12 * (block + 1)) :
    let pix24 := join24 (pxMap (8 + 3 * block)) (pxMap (8 + 3 * block + 1))
      (pxMap (8 + 3 * block + 2))
    Encodes pxMap before writes (DisplayDriver.putPairs pix24 pairs o) ∧
      (DisplayDriver.putPairs pix24 pairs o).buf.len = 12 * (block + 1) := by
  intro pix24
  induction pairs generalizing o with
  | zero => exact ⟨h, hlen⟩
  | succ pairs ih =>
    have hbit : ∀ j < 24, pix24.getLsbD (23 - j) = bitAt (bitmap pxMap) (24 * block + j) := by
      intro j hj
      have hslice := @getLsbD_join24_slice (bitmap pxMap) (3 * block) j hj
      rwa [← Nat.mul_assoc] at hslice
    have hfirst := hbit (22 - 2 * pairs) (by omega)
    have hsecond := hbit (23 - 2 * pairs) (by omega)
    rw [show 23 - (22 - 2 * pairs) = 2 * pairs + 1 by omega,
      show 24 * block + (22 - 2 * pairs) = 2 * o.buf.len by omega] at hfirst
    rw [show 23 - (23 - 2 * pairs) = 2 * pairs by omega,
      show 24 * block + (23 - 2 * pairs) = 2 * o.buf.len + 1 by omega] at hsecond
    refine ih (h.put ?_) (by omega) ?_
    · simp only [decide_shift_and_one, Nat.add_sub_cancel, hfirst, hsecond, pixelByte]
    · show o.buf.len + 1 + pairs = 12 * (block + 1)
      omega

/-- **The outer loop** writes the pixels of all blocks that are left. -/
theorem putBlocks (h : Encodes pxMap before writes o) {block : ℕ} (blocks : ℕ)
    (hlen : o.buf.len = 12 * block) :
    Encodes pxMap before writes (DisplayDriver.putBlocks pxMap blocks (8 + 3 * block) o) ∧
      (DisplayDriver.putBlocks pxMap blocks (8 + 3 * block) o).buf.len =
        12 * (block + blocks) := by
  induction blocks generalizing o block with
  | zero => exact ⟨h, hlen⟩
  | succ blocks ih =>
    obtain ⟨hblock, hnext⟩ := h.putPairs (Nat.le_refl 12)
      (show o.buf.len + 12 = 12 * (block + 1) by omega)
    have hrest := ih hblock hnext
    rw [show block + 1 + blocks = block + (blocks + 1) by omega] at hrest
    exact hrest

end Encodes

/-! ### The flush -/

/-- The nibbles of a byte with two pixels. -/
theorem nibbleAt_of_pixelByte {pxMap buf : ℕ → Byte} {k : ℕ}
    (h : buf (k / 2) = pixelByte pxMap (k / 2)) :
    nibbleAt buf k = if bitAt (bitmap pxMap) k then 0x0#4 else 0xF#4 := by
  rw [nibbleAt, h, pixelByte]
  split
  · next heven =>
    rw [show 2 * (k / 2) = k by omega]
    cases bitAt (bitmap pxMap) k <;> cases bitAt (bitmap pxMap) (k + 1) <;> rfl
  · next hodd =>
    rw [show 2 * (k / 2) + 1 = k by omega]
    cases bitAt (bitmap pxMap) (2 * (k / 2)) <;> cases bitAt (bitmap pxMap) k <;> rfl

/-- The bytes of a row of the bitmap, `LV_DRAW_BUF_STRIDE_ALIGN` being 1. -/
def stride (width : ℕ) : ℕ := (width + 7) / 8

/-- A pixel of the bitmap, the leftmost one of a byte in its high bit. -/
def bitmapBit (pxMap : ℕ → Byte) (width row col : ℕ) : Bool :=
  (bitmap pxMap (row * stride width + col / 8)).getLsbD (7 - col % 8)

/-- What the rounding is for. -/
structure RoundsArea (area rounded : LvArea) : Prop where
  within : area.Within rounded
  inScreen : rounded.InScreen
  x1_dvd : 24 ∣ rounded.x1
  x2_dvd : 24 ∣ rounded.x2 + 1
  pixels_dvd : 24 ∣ rounded.pixels

/-- What the flush is for: a byte for every two pixels is written to the buffer, one behind the
other, and pixel `k` of the area, row by row, is nibble `k` of them, `F` if its bit is not set. -/
structure FlushesPixels (driver : DisplayDriver) (area : LvArea) (pxMap : ℕ → Byte) : Prop where
  size : 2 * ((lvglFlushCb driver area pxMap).pendingFlush.size : ℤ) = area.pixels
  writes : (lvglFlushCb driver area pxMap).writes =
    driver.writes ++ List.range (lvglFlushCb driver area pxMap).pendingFlush.size
  inBounds : ∀ i ∈ List.range (lvglFlushCb driver area pxMap).pendingFlush.size, i < bufferSize
  frame : ∀ i, (lvglFlushCb driver area pxMap).pendingFlush.size ≤ i →
    (lvglFlushCb driver area pxMap).pendingFlush.buffer i = driver.pendingFlush.buffer i
  pixel : ∀ row col : ℕ, row < area.height → col < area.width →
    nibbleAt (lvglFlushCb driver area pxMap).pendingFlush.buffer (row * area.width.toNat + col) =
      if bitmapBit pxMap area.width.toNat row col then 0x0#4 else 0xF#4

/-- What the flush of whole blocks writes. -/
theorem lvglFlushCb_encodes (driver : DisplayDriver) {area : LvArea} {blocks : ℕ}
    (hpixels : area.pixels = 24 * blocks) (pxMap : ℕ → Byte) :
    (lvglFlushCb driver area pxMap).pendingFlush.size = 12 * blocks ∧
      Encodes pxMap driver.pendingFlush.buffer driver.writes
        { buf := { buffer := (lvglFlushCb driver area pxMap).pendingFlush.buffer
                   len := (lvglFlushCb driver area pxMap).pendingFlush.size }
          writes := (lvglFlushCb driver area pxMap).writes } := by
  have hstart : Encodes pxMap driver.pendingFlush.buffer driver.writes
      { buf := .ofBuffer driver.pendingFlush.buffer, writes := driver.writes } :=
    { contents := rfl
      frame := fun _ _ => rfl
      writes := (List.append_nil _).symm }
  obtain ⟨hencodes, hlen⟩ := hstart.putBlocks blocks (show _ = 12 * 0 from rfl)
  have hblocks : ((area.x2 - area.x1 + 1) * (area.y2 - area.y1 + 1)).tdiv 24 = blocks := by
    have htotal : (area.x2 - area.x1 + 1) * (area.y2 - area.y1 + 1) = 24 * blocks := hpixels
    rw [htotal, Int.mul_tdiv_cancel_left _ (by decide)]
  rw [Nat.zero_add] at hlen
  simp only [lvglFlushCb, hblocks, Int.toNat_natCast]
  exact ⟨hlen, hencodes⟩

/-- The rows of a bitmap with whole bytes in a row. -/
theorem bitAt_bitmap {width : ℕ} (hwidth : 8 ∣ width) (pxMap : ℕ → Byte) (row col : ℕ) :
    bitAt (bitmap pxMap) (row * width + col) = bitmapBit pxMap width row col := by
  have hstride : stride width = width / 8 := by
    rw [stride]
    omega
  rw [bitAt_row hwidth, bitmapBit, hstride]

/-- **The flush of a rounded area** that fits the buffer. -/
theorem flushesPixels_of_rounded (driver : DisplayDriver) {area : LvArea} (h : area.Rounded)
    (hfits : bufferFraction * area.pixels ≤ lcdWidth * lcdHeight) (pxMap : ℕ → Byte) :
    FlushesPixels driver area pxMap := by
  obtain ⟨blocks, hpixels⟩ : ∃ blocks : ℕ, area.pixels = 24 * blocks := by
    obtain ⟨blocks, hblocks⟩ := h.pixels_dvd
    have hpos := Int.mul_pos h.width_pos h.height_pos
    rw [← pixels, hblocks] at hpos
    exact ⟨blocks.toNat, by omega⟩
  obtain ⟨hsize, hencodes⟩ := lvglFlushCb_encodes driver hpixels pxMap
  refine ⟨by omega, hencodes.writes, fun i hi => ?_, hencodes.frame, fun row col hrow hcol => ?_⟩
  · rw [List.mem_range, hsize] at hi
    simp only [bufferSize, bufferFraction, lcdWidth, lcdHeight] at hfits ⊢
    omega
  · obtain ⟨width, hwidth⟩ := Int.eq_ofNat_of_zero_le h.width_pos.le
    obtain ⟨height, hheight⟩ := Int.eq_ofNat_of_zero_le h.height_pos.le
    rw [hheight, Int.ofNat_lt] at hrow
    rw [hwidth, Int.ofNat_lt] at hcol
    rw [hwidth, Int.toNat_natCast]
    have hpixel : row * width + col < 24 * blocks := by
      have htotal : width * height = 24 * blocks := by
        rw [pixels, hwidth, hheight] at hpixels
        exact_mod_cast hpixels
      calc row * width + col < row * width + width := Nat.add_lt_add_left hcol _
        _ = (row + 1) * width := (Nat.succ_mul row width).symm
        _ ≤ height * width := Nat.mul_le_mul_right width hrow
        _ = 24 * blocks := by rw [Nat.mul_comm, htotal]
    have hhalf : (row * width + col) / 2 < (lvglFlushCb driver area pxMap).pendingFlush.size := by
      omega
    have hbyte := Writer.apply_of_contents hencodes.contents hhalf
    have hwhole : 8 ∣ width := by
      have hdvd := h.width_dvd
      rw [hwidth] at hdvd
      omega
    rw [nibbleAt_of_pixelByte hbyte, bitAt_bitmap hwhole]

/-! ### The window -/

/-- What the commands say: the window is the area, three dots being a column, and the first byte is
for its first dots. -/
structure ProgramsWindow (commands : List Byte) (area : LvArea) : Prop where
  left : 3 * ((commands.getD 9 0#8).toNat : ℤ) = area.x1
  right : 3 * ((commands.getD 11 0#8).toNat + 1 : ℤ) = area.x2 + 1
  top : ((commands.getD 5 0#8).toNat : ℤ) = area.y1
  bottom : ((commands.getD 7 0#8).toNat : ℤ) = area.y2
  column : (commands.getD 0 0#8 &&& 0x07#8) <<< 4 ||| (commands.getD 1 0#8 &&& 0x0F#8) =
    commands.getD 9 0#8
  row : (commands.getD 2 0#8 &&& 0x0F#8) <<< 4 ||| (commands.getD 3 0#8 &&& 0x0F#8) =
    commands.getD 5 0#8

/-- The two halves of the address of a column. -/
theorem columnAddress : ∀ n < 80,
    ((0x10#8 ||| (BitVec.ofNat 8 n >>> 4 &&& 0b00000111#8)) &&& 0x07#8) <<< 4 |||
      ((0x00#8 ||| (BitVec.ofNat 8 n &&& 0b00001111#8)) &&& 0x0F#8) = BitVec.ofNat 8 n := by
  decide +kernel

/-- The two halves of the address of a row. -/
theorem rowAddress : ∀ n < 160,
    ((0x70#8 ||| BitVec.ofNat 8 n >>> 4) &&& 0x0F#8) <<< 4 |||
      ((0x60#8 ||| (BitVec.ofNat 8 n &&& 0b00001111#8)) &&& 0x0F#8) = BitVec.ofNat 8 n := by
  decide +kernel

/-- A column is three dots wide. -/
theorem setWindowProgramAreaRaw_eq {c1 c2 : ℕ} (hc1 : c1 < 80) (hc2 : c2 < 80) (y1 y2 : Byte)
    (outsideMode : Bool) :
    setWindowProgramAreaRaw (BitVec.ofNat 8 (3 * c1)) (BitVec.ofNat 8 (3 * c2 + 2)) y1 y2
        outsideMode =
      [0x10#8 ||| (BitVec.ofNat 8 c1 >>> 4 &&& 0b00000111#8),
        0x00#8 ||| (BitVec.ofNat 8 c1 &&& 0b00001111#8),
        0x70#8 ||| y1 >>> 4, 0x60#8 ||| (y1 &&& 0b00001111#8),
        0xF5#8, y1, 0xF7#8, y2, 0xF4#8, BitVec.ofNat 8 c1, 0xF6#8, BitVec.ofNat 8 c2,
        0xF8#8 ||| if outsideMode then 0x01#8 else 0x00#8] := by
  have hleft : (BitVec.ofNat 8 (3 * c1)).toNat / 3 = c1 := by
    rw [BitVec.toNat_ofNat]
    omega
  have hright : ((BitVec.ofNat 8 (3 * c2 + 2)).toNat + 1) / 3 = c2 + 1 := by
    rw [BitVec.toNat_ofNat]
    omega
  have hlast : ∀ c < 80,
      BitVec.ofInt 8 ((BitVec.ofNat 8 (c + 1)).toInt - 1) = BitVec.ofNat 8 c := by
    decide +kernel
  simp only [setWindowProgramAreaRaw, hleft, hright, hlast c2 hc2]

/-- **The window of a rounded area** is the area. -/
theorem windowCommands_programsWindow {driver : DisplayDriver}
    (h : driver.pendingFlush.area.Rounded) :
    ProgramsWindow driver.windowCommands driver.pendingFlush.area := by
  have hx2 := h.x2_lt
  have hy2 := h.y2_lt
  have hx := h.x1_le
  have hy := h.y1_le
  rw [lcdWidth] at hx2
  rw [lcdHeight] at hy2
  obtain ⟨c1, hc1⟩ : ∃ c : ℕ, driver.pendingFlush.area.x1 = (3 * c : ℕ) := by
    obtain ⟨a, ha⟩ := h.x1_dvd
    have hnonneg := h.x1_nonneg
    exact ⟨(8 * a).toNat, by omega⟩
  obtain ⟨c2, hc2⟩ : ∃ c : ℕ, driver.pendingFlush.area.x2 = (3 * c + 2 : ℕ) := by
    obtain ⟨b, hb⟩ := h.x2_dvd
    have hnonneg := h.x1_nonneg
    exact ⟨(8 * b - 1).toNat, by omega⟩
  obtain ⟨y1, hy1⟩ := Int.eq_ofNat_of_zero_le h.y1_nonneg
  obtain ⟨y2, hy2'⟩ := Int.eq_ofNat_of_zero_le (h.y1_nonneg.trans hy)
  have hcommands := @setWindowProgramAreaRaw_eq c1 c2 (by omega) (by omega) (BitVec.ofNat 8 y1)
    (BitVec.ofNat 8 y2) false
  rw [windowCommands, hc1, hc2, hy1, hy2', BitVec.ofInt_natCast, BitVec.ofInt_natCast,
    BitVec.ofInt_natCast, BitVec.ofInt_natCast, hcommands]
  constructor
  · show 3 * ((BitVec.ofNat 8 c1).toNat : ℤ) = _
    rw [BitVec.toNat_ofNat]
    omega
  · show 3 * ((BitVec.ofNat 8 c2).toNat + 1 : ℤ) = _
    rw [BitVec.toNat_ofNat]
    omega
  · show ((BitVec.ofNat 8 y1).toNat : ℤ) = _
    rw [BitVec.toNat_ofNat]
    omega
  · show ((BitVec.ofNat 8 y2).toNat : ℤ) = _
    rw [BitVec.toNat_ofNat]
    omega
  · exact columnAddress c1 (by omega)
  · exact rowAddress y1 (by omega)

/-- **The display flush.** An area on the screen is rounded to one that contains it, is on the
screen and has whole blocks of columns and pixels, and if it has no more than a tenth of the pixels
of the screen, the flush writes exactly a nibble for each of its pixels. -/
theorem display_flush_exact (area : LvArea) (h : area.InScreen) :
    RoundsArea area (lvglRounderCb area) ∧
      (bufferFraction * (lvglRounderCb area).pixels ≤ lcdWidth * lcdHeight →
        ∀ (driver : DisplayDriver) (pxMap : ℕ → Byte),
          FlushesPixels driver (lvglRounderCb area) pxMap) := by
  have hrounded := lvglRounderCb_rounded h
  refine ⟨?_, fun hfits driver pxMap => flushesPixels_of_rounded driver hrounded hfits pxMap⟩
  exact
    { within := within_lvglRounderCb h
      inScreen := hrounded.toInScreen
      x1_dvd := hrounded.x1_dvd
      x2_dvd := hrounded.x2_dvd
      pixels_dvd := hrounded.pixels_dvd }

/-- A small symbol is redrawn, with every pixel set. -/
theorem display_flush_exact_symbol :
    FlushesPixels
      { pendingFlush := { area := ⟨0, 0, 239, 15⟩, buffer := fun _ => 0x00#8, size := 0 }
        transferState := .idle, bufReady := false, writes := [] }
      (lvglRounderCb ⟨100, 20, 131, 51⟩) (fun _ => 0xFF#8) :=
  (display_flush_exact ⟨100, 20, 131, 51⟩
    ⟨by decide, by decide, by decide, by decide, by decide, by decide⟩).2 (by decide) _ _

end OpenMower
