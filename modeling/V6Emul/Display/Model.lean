import V6Emul.Foundation.Runs
import V6Emul.Io

/-!
# The display

The rasteriser draws sixteen pixels a call, cut where the border meets the active
area.  Two routines fill a piece of border and four a piece of active area; those
named after port handling count the commit timers down before every pixel, and of
the six only the one for the border wraps the index at the end of the frame.
-/

namespace V6Emul

/-! ## Geometry -/

abbrev frameW : Nat := 768
abbrev frameH : Nat := 312
abbrev frameLen : Nat := frameW * frameH
abbrev scanActiveAreaTop : Int := 24 + 16
abbrev activeAreaW : Int := 512
abbrev activeAreaH : Int := 256
abbrev borderLeftDefault : Int := 128
abbrev rasterizedPxlsMax : Int := 16
abbrev irqCommitPxlDefault : Int := 112
abbrev scrollCommitPxl : Int := borderLeftDefault + 3

abbrev Color := BitVec 32

def vectorColorToArgb (vColor : Byte) : Color :=
  let r := (vColor &&& 0x07#8).setWidth 32
  let g := ((vColor &&& 0x38#8) >>> 3).setWidth 32
  let b := ((vColor &&& 0xC0#8) >>> 6).setWidth 32
  0xFF000000#32 ||| (r <<< 5) ||| (g <<< 13) ||| (b <<< 22)

abbrev FrameBuffer := Fin frameLen → Color

def scrolledLine (scrollIdx : Byte) (line : Int) : Int :=
  (line - scanActiveAreaTop + (255 - (scrollIdx.toNat : Int)) + activeAreaH).tmod activeAreaH +
    scanActiveAreaTop

def screenOffset (borderLeft line pixel : Int) : Addr :=
  let addrHigh := (pixel - borderLeft).tdiv rasterizedPxlsMax
  let addrLow := activeAreaH - 1 - (line - scanActiveAreaTop)
  ((BitVec.ofInt 32 addrHigh <<< 8) ||| BitVec.ofInt 32 addrLow).setWidth 16

structure Display where
  update : DisplayUpdate
  frameBuffer : FrameBuffer
  backBuffer : FrameBuffer
  borderLeft : Int
  irqCommitPxl : Int
  fault : Bool

namespace Display

def new : Display where
  update := .init
  frameBuffer _ := 0xFF000000#32
  backBuffer _ := 0
  borderLeft := borderLeftDefault
  irqCommitPxl := irqCommitPxlDefault
  fault := false

def idx (d : Display) : Int := d.update.framebufferIdx.toInt

def setIdx (idx : Int) (d : Display) : Display :=
  { d with update := { d.update with framebufferIdx := BitVec.ofInt 32 idx } }

def rasterLine (d : Display) : Int := d.idx.tdiv frameW

def rasterPixel (d : Display) : Int := d.idx.tmod frameW

def activeAreaRight (d : Display) : Int := d.borderLeft + activeAreaW

/-- `m_frameBuffer[framebufferIdx++] = color` -/
def store (color : Color) (d : Display) : Display :=
  { d with
    frameBuffer := fun i => if (i.val : Int) = d.idx then color else d.frameBuffer i
    fault := d.fault || !decide (0 ≤ d.idx ∧ d.idx < frameLen) }.setIdx (d.idx + 1)

def wrapFrame (d : Display) : Display :=
  let isNewFrame := d.idx.tdiv frameLen
  let d := d.setIdx (d.idx.tmod frameLen)
  let d := { d with update := { d.update with irq := d.update.irq || d.idx == d.irqCommitPxl } }
  if isNewFrame ≠ 0 then
    { d with
      update := { d.update with frameNum := d.update.frameNum + 1 }
      backBuffer := d.frameBuffer }
  else d

def reset (d : Display) : Display :=
  { d with update := .init, frameBuffer := fun _ => 0xFF000000#32 }

def rasterLineScrolled (d : Display) : Int := scrolledLine d.update.scrollIdx d.rasterLine

def screenAddrOffset (line pixel : Int) (d : Display) : Addr :=
  screenOffset d.borderLeft line pixel

end Display

def screenAddrs (offset : Addr) : List Nat :=
  [0x8000, 0xA000, 0xC000, 0xE000].map fun buffer => offset.toNat + buffer

def Memory.getScreenBytes (m : Memory) (offset : Addr) : BitVec 32 :=
  let byte8 := m.ram.read (offset.toNat + 0x8000)
  let byteA := m.ram.read (offset.toNat + 0xA000)
  let byteC := m.ram.read (offset.toNat + 0xC000)
  let byteE := m.ram.read (offset.toNat + 0xE000)
  byte8 ++ byteA ++ byteC ++ byteE

/-! ## Pixel modes -/

def bytesToColorIdx256 (screenBytes : BitVec 32) (bitIdx : Byte) : BitVec 4 :=
  let bit := bitIdx.toNat
  ((screenBytes >>> bit &&& 1#32) |||
    (screenBytes >>> (bit + 7) &&& 2#32) |||
    (screenBytes >>> (bit + 14) &&& 4#32) |||
    (screenBytes >>> (bit + 21) &&& 8#32)).setWidth 4

def bytesToColorIdx512 (screenBytes : BitVec 32) (bitIdx : Byte) : BitVec 4 :=
  let bit := (bitIdx >>> 1).toNat
  if bitIdx &&& 1#8 = 1#8 then
    ((screenBytes >>> bit &&& 1#32) ||| (screenBytes >>> (bit + 7) &&& 2#32)).setWidth 4
  else
    (((screenBytes >>> (bit + 16) &&& 1#32) |||
      (screenBytes >>> (bit + 23) &&& 2#32)) * 4#32).setWidth 4

structure PixelMode where
  colorIdx : BitVec 32 → Byte → BitVec 4
  /-- the bit index that a byte starts with -/
  top : Int
  start : Int → Int
  next : Nat → Int → Int

def mode256 : PixelMode where
  colorIdx := bytesToColorIdx256
  top := 7
  start offset := 7 - (offset.tmod rasterizedPxlsMax >>> (1 : Nat))
  next i bitIdx := bitIdx - ((i % 2 : Nat) : Int)

def mode512 : PixelMode where
  colorIdx := bytesToColorIdx512
  top := 15
  start offset := 15 - offset.tmod rasterizedPxlsMax
  next _ pxlIdx := pxlIdx - 1

/-! ## Filling pixels -/

structure Raster (δ : Type) extends Bus δ where
  display : Display

namespace Raster

variable {δ : Type}

def setDisplay (f : Display → Display) (r : Raster δ) : Raster δ :=
  { r with display := f r.display }

def store (color : Byte) (r : Raster δ) : Raster δ :=
  { r with
    io := r.io.log .pixel
    display := r.display.store (vectorColorToArgb color) }

def tryToCommit (dev : Devices δ) (colorIdx : BitVec 4) (r : Raster δ) : Raster δ :=
  { r with toBus := r.toBus.tryToCommit dev colorIdx }

def getScreenBytes (line pixel : Int) (r : Raster δ) : BitVec 32 :=
  r.mem.getScreenBytes (r.display.screenAddrOffset line pixel)

def fillBorder (n : Int) (r : Raster δ) : Raster δ :=
  let borderColor := r.io.state.getBorderColor
  Runs.after (fun _ => store borderColor) id r n.toNat

def borderPixel (dev : Devices δ) (r : Raster δ) : Raster δ :=
  let r := r.tryToCommit dev r.io.state.brdColorIdx
  (r.store r.io.state.getBorderColor).setDisplay Display.wrapFrame

def fillBorderPortHandling (dev : Devices δ) (n : Int) (r : Raster δ) : Raster δ :=
  Runs.after (fun _ => borderPixel dev) id r n.toNat

structure Scan (δ : Type) where
  screenBytes : BitVec 32
  bitIdx : Int
  raster : Raster δ

def latchScroll (line : Int) (r : Raster δ) : Raster δ :=
  if line = scanActiveAreaTop ∧ r.display.rasterPixel = scrollCommitPxl then
    r.setDisplay fun d => { d with update := { d.update with scrollIdx := r.io.state.ports.portA } }
  else r

def reload (mode : PixelMode) (lineScrolled pixel : Int) (s : Scan δ) : Scan δ :=
  if s.bitIdx < 0 then
    { s with bitIdx := mode.top, screenBytes := s.raster.getScreenBytes lineScrolled pixel }
  else s

def activePixel (mode : PixelMode) (lineScrolled : Int) (i : Nat) (s : Scan δ) : Scan δ :=
  let colorIdx := mode.colorIdx s.screenBytes (BitVec.ofInt 8 s.bitIdx)
  let r := s.raster.store (s.raster.io.state.getColor colorIdx)
  reload mode lineScrolled r.display.rasterPixel
    { s with bitIdx := mode.next i s.bitIdx, raster := r }

def activePixelPortHandling (dev : Devices δ) (mode : PixelMode) (line lineScrolled : Int) (i : Nat)
    (s : Scan δ) : Scan δ :=
  let rasterPixel := s.raster.display.rasterPixel
  let r := s.raster.latchScroll line
  let colorIdx := mode.colorIdx s.screenBytes (BitVec.ofInt 8 s.bitIdx)
  let r := r.tryToCommit dev colorIdx
  let r := r.store (r.io.state.getColor colorIdx)
  reload mode lineScrolled rasterPixel { s with bitIdx := mode.next i s.bitIdx, raster := r }

def startScan (mode : PixelMode) (r : Raster δ) : Scan δ where
  screenBytes := r.getScreenBytes r.display.rasterLineScrolled r.display.rasterPixel
  bitIdx := mode.start (r.display.idx - r.display.borderLeft)
  raster := r

def fillActiveArea (mode : PixelMode) (n : Int) (r : Raster δ) : Raster δ :=
  (Runs.after (activePixel mode r.display.rasterLineScrolled) id (startScan mode r) n.toNat).raster

def fillActiveAreaPortHandling (dev : Devices δ) (mode : PixelMode) (n : Int) (r : Raster δ) :
    Raster δ :=
  (Runs.after (activePixelPortHandling dev mode r.display.rasterLine r.display.rasterLineScrolled)
    id (startScan mode r) n.toNat).raster

def fillActiveArea256 (n : Int) (r : Raster δ) : Raster δ := fillActiveArea mode256 n r

def fillActiveArea512 (n : Int) (r : Raster δ) : Raster δ := fillActiveArea mode512 n r

def fillActiveArea256PortHandling (dev : Devices δ) (n : Int) (r : Raster δ) : Raster δ :=
  fillActiveAreaPortHandling dev mode256 n r

def fillActiveArea512PortHandling (dev : Devices δ) (n : Int) (r : Raster δ) : Raster δ :=
  fillActiveAreaPortHandling dev mode512 n r

/-! ## The two dispatchers -/

def rasterizeActiveArea (dev : Devices δ) (n : Int) (r : Raster δ) : Raster δ :=
  let commitTime := decide (0 < r.io.state.outCommitTimer.toInt) ||
    decide (0 < r.io.state.paletteCommitTimer.toInt)
  let scrollTime := decide (r.display.rasterLine = scanActiveAreaTop ∧
    r.display.rasterPixel < r.display.borderLeft + rasterizedPxlsMax)
  if commitTime || scrollTime then
    if r.io.state.displayMode = false then r.fillActiveArea256PortHandling dev n
    else r.fillActiveArea512PortHandling dev n
  else
    if r.io.state.displayMode = false then r.fillActiveArea256 n
    else r.fillActiveArea512 n

def rasterizeBorder (dev : Devices δ) (n : Int) (r : Raster δ) : Raster δ :=
  let commitTime := decide (0 ≤ r.io.state.outCommitTimer.toInt) ||
    decide (0 ≤ r.io.state.paletteCommitTimer.toInt)
  if commitTime || r.display.rasterLine == 0 || r.display.rasterLine == 311 then
    r.fillBorderPortHandling dev n
  else r.fillBorder n

def drawSlice (active border : Int → Raster δ → Raster δ) (r : Raster δ) : Raster δ :=
  let line := r.display.rasterLine
  let pixel := r.display.rasterPixel
  let right := r.display.activeAreaRight
  let isActiveScan := decide (scanActiveAreaTop ≤ line ∧ line < scanActiveAreaTop + activeAreaH)
  let isActiveArea := isActiveScan && decide (r.display.borderLeft ≤ pixel ∧ pixel < right)
  if isActiveArea then
    let n := min (right - pixel) rasterizedPxlsMax
    let r := active n r
    if n < rasterizedPxlsMax then border (rasterizedPxlsMax - n) r else r
  else
    let n :=
      if !isActiveScan || decide (right ≤ pixel) then rasterizedPxlsMax
      else min (r.display.borderLeft - pixel) rasterizedPxlsMax
    let r := border n r
    if n < rasterizedPxlsMax then active (rasterizedPxlsMax - n) r else r

def beginRasterize (r : Raster δ) : Raster δ :=
  { r with
    io := r.io.log .rasterize
    display := { r.display with update := { r.display.update with irq := false } } }

def rasterize (dev : Devices δ) (r : Raster δ) : Raster δ :=
  drawSlice (rasterizeActiveArea dev) (rasterizeBorder dev) r.beginRasterize

def redrawActiveArea (n : Int) (r : Raster δ) : Raster δ :=
  if r.io.state.displayMode = false then r.fillActiveArea256 n else r.fillActiveArea512 n

def slicesPerFrame : Nat := frameLen / 16

def redrawSlices (n : Nat) (r : Raster δ) : Raster δ :=
  Runs.after (fun _ => drawSlice redrawActiveArea fillBorder) id r n

def frameBuffUpdate (r : Raster δ) : Raster δ :=
  let framebufferIdxTemp := r.display.idx
  ((r.setDisplay (Display.setIdx 0)).redrawSlices slicesPerFrame).setDisplay
    (Display.setIdx framebufferIdxTemp)

end Raster

end V6Emul
