import OpenMower.Library.BitStream
import OpenMower.Library.Buffer
import OpenMower.Portable.Integers

/-!
# The display driver of the Sabo cover UI

From `drivers/ui/SaboCoverUI/sabo_cover_ui_display_driver_uc1698`. The areas that are redrawn are
rounded, since the controller has three dots in a column and the graphics library has eight pixels
in a byte. A flush converts the bitmap of an area to a nibble for each pixel, and hands the buffer
over to the thread of the driver.

The coordinates are the integers that the screen has, without an overflow. The window that the
thread programs before it sends the buffer is modelled by the bytes of its commands.
-/

namespace OpenMower

open Buffer BitStream

/-- `LCD_WIDTH`. -/
def lcdWidth : ℕ := 240

/-- `LCD_HEIGHT`. -/
def lcdHeight : ℕ := 160

/-- `BUFFER_FRACTION`. -/
def bufferFraction : ℕ := 10

/-- `lv_area_t`. -/
structure LvArea where
  x1 : ℤ
  y1 : ℤ
  x2 : ℤ
  y2 : ℤ
  deriving DecidableEq, Repr

namespace LvArea

variable (area : LvArea)

/-- The columns of an area. -/
def width : ℤ := area.x2 - area.x1 + 1

/-- The rows of an area. -/
def height : ℤ := area.y2 - area.y1 + 1

/-- The pixels of an area. -/
def pixels : ℤ := area.width * area.height

end LvArea

/-- `TransferState`. -/
inductive TransferState
  | idle
  | queued
  | sync
  | flushArea
  deriving DecidableEq, Repr

/-- `AsyncFlush`. -/
structure AsyncFlush where
  area : LvArea
  buffer : ℕ → Byte
  size : ℕ

/-- `SaboCoverUIDisplayDriverUC1698`, as far as it is about flushes. -/
structure DisplayDriver where
  pendingFlush : AsyncFlush
  transferState : TransferState
  /-- `ASYNC_BUF_READY` has been broadcast. -/
  bufReady : Bool
  /-- History: the indices at which the buffer has been written. -/
  writes : List ℕ

namespace DisplayDriver

/-- `buffer_size_`. -/
def bufferSize : ℕ := lcdWidth * lcdHeight / bufferFraction / 2

/-- `LVGLRounderCB`, for the invalidated area. -/
def lvglRounderCb (area : LvArea) : LvArea :=
  let x1 := area.x1.tdiv 24 * 24
  let x2 := (area.x2 + 1 + 23).tdiv 24 * 24 - 1
  let width := x2 - x1 + 1
  let height := area.y2 - area.y1 + 1
  let total := width * height
  let rest := total.tmod 6
  if rest ≠ 0 then
    let add := (6 - rest + width - 1).tdiv width
    { area with x1, x2, y2 := area.y2 + add }
  else { area with x1, x2 }

/-- The buffer while it is filled, with its index. -/
structure PixelBuffer where
  buf : Writer Byte
  /-- History: the indices at which it has been written. -/
  writes : List ℕ

/-- `buf[buf_idx++] = b`. -/
def PixelBuffer.put (o : PixelBuffer) (b : Byte) : PixelBuffer where
  buf := o.buf.put b
  writes := o.writes ++ [o.buf.len]

/-- The byte of two pixels: a set bit is a dot that is off. -/
def pixelPair (p1 p2 : Bool) : Byte :=
  (if p1 then 0x00#8 else 0xF0#8) ||| (if p2 then 0x00#8 else 0x0F#8)

/-- The inner loop, with some pairs left: `i` is 23 for the first of twelve and 1 for the last. -/
def putPairs (pix24 : BitVec 32) : ℕ → PixelBuffer → PixelBuffer
  | 0, o => o
  | pairs + 1, o =>
    let i := 2 * pairs + 1
    let p1 := decide ((pix24 >>> i) &&& 0x01#32 ≠ 0#32)
    let p2 := decide ((pix24 >>> (i - 1)) &&& 0x01#32 ≠ 0#32)
    putPairs pix24 pairs (o.put (pixelPair p1 p2))

/-- The outer loop, with some blocks left. -/
def putBlocks (pxMap : ℕ → Byte) : ℕ → ℕ → PixelBuffer → PixelBuffer
  | 0, _, o => o
  | blocks + 1, src, o =>
    let pix24 := join24 (pxMap src) (pxMap (src + 1)) (pxMap (src + 2))
    putBlocks pxMap blocks (src + 3) (putPairs pix24 12 o)

/-- `LVGLFlushCB`. -/
def lvglFlushCb (driver : DisplayDriver) (area : LvArea) (pxMap : ℕ → Byte) : DisplayDriver :=
  let width := area.x2 - area.x1 + 1
  let height := area.y2 - area.y1 + 1
  let totalPixels := width * height
  let blocks := totalPixels.tdiv 24
  let o := putBlocks pxMap blocks.toNat 8
    { buf := .ofBuffer driver.pendingFlush.buffer, writes := driver.writes }
  { pendingFlush := { area, buffer := o.buf.buffer, size := o.buf.len }
    transferState := .queued
    bufReady := true
    writes := o.writes }

/-- `SetWindowProgramAreaRaw`: the bytes that are sent. -/
def setWindowProgramAreaRaw (x1 x2 y1 y2 : Byte) (outsideMode : Bool) : List Byte :=
  let column (n : ℕ) : Byte := BitVec.ofNat 8 n
  [0x10#8 ||| (column (x1.toNat / 3) >>> 4 &&& 0b00000111#8),
    0x00#8 ||| (column (x1.toNat / 3) &&& 0b00001111#8),
    0x70#8 ||| y1 >>> 4,
    0x60#8 ||| (y1 &&& 0b00001111#8),
    0xF5#8, y1,
    0xF7#8, y2,
    0xF4#8, column (x1.toNat / 3),
    0xF6#8, BitVec.ofInt 8 ((column ((x2.toNat + 1) / 3)).toInt - 1),
    0xF8#8 ||| if outsideMode then 0x01#8 else 0x00#8]

/-- The window of the pending flush, as the thread programs it. -/
def windowCommands (driver : DisplayDriver) : List Byte :=
  let area := driver.pendingFlush.area
  setWindowProgramAreaRaw (BitVec.ofInt 8 area.x1) (BitVec.ofInt 8 area.x2)
    (BitVec.ofInt 8 area.y1) (BitVec.ofInt 8 area.y2) false

end DisplayDriver

end OpenMower
