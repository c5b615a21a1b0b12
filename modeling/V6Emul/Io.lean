import V6Emul.Devices
import V6Emul.Fdc.Model

/-!
# The I/O controller

An `OUT` does not reach its port at once.  `PortOut` keeps the port and the value
in a single slot and starts a countdown in pixels; the display counts it down
while it draws, and at zero the value is handed to the port.  Palette entries and
the display mode have countdowns of their own.
-/

namespace V6Emul

/-- The keyboard, timer, sound and disk chips, as calls over their joint state. -/
structure Devices (δ : Type) where
  keyRead : Byte → δ → Byte
  keySS : δ → Bool
  keyUS : δ → Bool
  keyRus : δ → Bool
  timerRead : Int → δ → Byte × δ
  timerWrite : Int → Byte → δ → δ
  ayRead : Byte → δ → Byte × δ
  ayWrite : Byte → Byte → δ → δ
  fdcRead : FdcPort → δ → Byte × δ
  fdcWrite : FdcPort → Byte → δ → δ
  debugPortOut : Byte → Byte → δ → δ
  /-- `Audio::Clock(2, beeper)` -/
  audioClock : Bool → δ → δ
  audioReset : δ → δ

def Devices.silent : Devices Unit where
  keyRead _ _ := 0xFF
  keySS _ := false
  keyUS _ := false
  keyRus _ := false
  timerRead _ s := (0, s)
  timerWrite _ _ s := s
  ayRead _ s := (0, s)
  ayWrite _ _ s := s
  fdcRead _ s := (0xFF, s)
  fdcWrite _ _ s := s
  debugPortOut _ _ s := s
  audioClock _ s := s
  audioReset s := s

/-- An entry of the history: calls on the ports, with the raster and the processor between them. -/
inductive PortEvent where
  | out (port value : Byte)
  | commit (port value : Byte)
  | rasterize
  | pixel
  | cycle
  deriving DecidableEq, Repr

structure Io (δ : Type) where
  state : IoState
  portsInData : Byte → Byte
  portsOutData : Byte → Byte
  paletteCommitTime : Int
  devices : δ
  events : List PortEvent

structure Bus (δ : Type) where
  mem : Memory
  io : Io δ

def outCommitTime : Byte := 1
def displayModeCommitTime : Byte := 2 * 4
def paletteCommitTimeDefault : Int := 5

def isPaletteEntry (port : Byte) : Bool := 0x0C#8 ≤ port && port ≤ 0x0F#8
def portOutDisplayMode : Byte := 0x02#8

namespace IoState

/-! ## The parallel ports -/

/-- `RUS_LAT = (PORT_C >> 3) & 1` -/
def latchRuslat (s : IoState) : IoState := { s with ruslat := s.ports.portC.getLsbD 3 }

def writePortC (value : Byte) (s : IoState) : IoState :=
  let s := s.latchRuslat
  { s with
    ruslatHistory := (s.ruslatHistory <<< 1) + (if s.ruslat then 1 else 0)
    ports := { s.ports with portC := value } }

def writePortB (value : Byte) (s : IoState) : IoState :=
  { s with
    ports := { s.ports with portB := value }
    brdColorIdx := value.setWidth 4
    reqDisplayMode := value.getLsbD 4 }

def writePortA (value : Byte) (s : IoState) : IoState :=
  { s with ports := { s.ports with portA := value } }

def writeControl (value : Byte) (s : IoState) : IoState :=
  let s := s.latchRuslat
  if value &&& 0x80#8 = 0 then
    let bit : Byte := 1#8 <<< ((value >>> 1) &&& 7#8).toNat
    let portC := if value &&& 1#8 = 1 then s.ports.portC ||| bit else s.ports.portC &&& ~~~bit
    { s with ports := { s.ports with portC := portC } }
  else
    ({ s with ports := { s.ports with cw := value } }.writePortC 0).writePortB 0 |>.writePortA 0

def getColor (s : IoState) (colorIdx : BitVec 4) : Byte := s.palette colorIdx.toFin

def getBorderColor (s : IoState) : Byte := s.getColor s.brdColorIdx

def setColor (colorIdx : BitVec 4) (s : IoState) : IoState :=
  { s with palette := Function.update s.palette colorIdx.toFin s.hwColor }

/-- `IO::Init`; the requested display mode keeps its value. -/
def init (s : IoState) : IoState :=
  { s with
    palette := fun _ => 0
    ports := ⟨0x08, 0xFF, 0xFF, 0xFF, 0, 0xFF, 0xFF, 0xFF⟩
    ruslatHistory := 0
    outport := 0
    outbyte := 0
    outCommitTimer := 0
    paletteCommitTimer := 0
    displayModeTimer := 0
    joy0 := 0xFF
    joy1 := 0xFF
    hwColor := 0
    brdColorIdx := 0
    displayMode := false
    ruslat := false }

end IoState

namespace Io

variable {δ : Type}

/-- The controller after `Init`, with the default commit time. -/
def new (devices : δ) : Io δ where
  state := IoState.zero.init
  portsInData _ := 0
  portsOutData _ := 0
  paletteCommitTime := paletteCommitTimeDefault
  devices := devices
  events := []

def setState (state : IoState) (s : Io δ) : Io δ := { s with state := state }

def log (event : PortEvent) (s : Io δ) : Io δ := { s with events := s.events ++ [event] }

/-! ## The processor's side -/

def readPortC (dev : Devices δ) (s : Io δ) : Byte :=
  let ports := s.state.ports
  let low := if ports.cw &&& 0x01#8 ≠ 0 then 0x0B#8 else ports.portC &&& 0x0F#8
  let high :=
    if ports.cw &&& 0x08#8 ≠ 0 then
      (if dev.keySS s.devices then 0#8 else 0x20#8) |||
      (if dev.keyUS s.devices then 0#8 else 0x40#8) |||
      (if dev.keyRus s.devices then 0#8 else 0x80#8)
    else ports.portC &&& 0xF0#8
  low ||| high

def portInHandling (dev : Devices δ) (port : Byte) (s : Io δ) : Byte × Io δ :=
  let ports := s.state.ports
  let call (result : Byte × δ) : Byte × Io δ := (result.1, { s with devices := result.2 })
  match port.toNat with
  | 0x01 => (s.readPortC dev, s)
  | 0x02 => (if ports.cw &&& 0x02#8 ≠ 0 then dev.keyRead ports.portA s.devices else ports.portB, s)
  | 0x03 => (if ports.cw &&& 0x10#8 = 0 then ports.portA else 0xFF#8, s)
  | 0x04 => (ports.cw2, s)
  | 0x05 => (ports.portC2, s)
  | 0x06 => (ports.portB2, s)
  | 0x07 => (ports.portA2, s)
  | 0x08 | 0x09 | 0x0A | 0x0B =>
      call (dev.timerRead (-1 - ((port &&& 3#8).toNat : Int)) s.devices)
  | 0x0E => (s.state.joy0, s)
  | 0x0F => (s.state.joy1, s)
  | 0x14 | 0x15 => call (dev.ayRead (port &&& 1#8) s.devices)
  | 0x18 => call (dev.fdcRead .data s.devices)
  | 0x19 => call (dev.fdcRead .sector s.devices)
  | 0x1A => call (dev.fdcRead .track s.devices)
  | 0x1B => call (dev.fdcRead .command s.devices)
  | 0x1C => call (dev.fdcRead .system s.devices)
  | _ => (0xFF#8, s)

def portIn (dev : Devices δ) (port : Byte) (s : Io δ) : Byte × Io δ :=
  let (out, s) := s.portInHandling dev port
  (out, { s with portsInData := Function.update s.portsInData port out })

def portOut (port value : Byte) (s : Io δ) : Io δ :=
  { s with
    portsOutData := Function.update s.portsOutData port value
    state := { s.state with
      outport := port
      outbyte := value
      outCommitTimer := outCommitTime
      paletteCommitTimer :=
        if isPaletteEntry port then BitVec.ofInt 8 s.paletteCommitTime
        else s.state.paletteCommitTimer
      displayModeTimer :=
        if port = portOutDisplayMode then displayModeCommitTime else s.state.displayModeTimer }
  }.log (.out port value)

def ports (dev : Devices δ) : PortFuncs (Io δ) := ⟨portIn dev, portOut⟩

end Io

namespace Bus

variable {δ : Type}

def setIoState (f : IoState → IoState) (b : Bus δ) : Bus δ :=
  { b with io := b.io.setState (f b.io.state) }

/-! ## Commits -/

def portOutHandling (dev : Devices δ) (port value : Byte) (b : Bus δ) : Bus δ :=
  let call (f : δ → δ) : Bus δ := { b with io := { b.io with devices := f b.io.devices } }
  let setPorts (f : Ports → Ports) : Bus δ :=
    b.setIoState fun s => { s with ports := f s.ports }
  let setMode (diskIdx : Fin 8) : Bus δ :=
    { b with mem := b.mem.setRamDiskMode diskIdx value }
  match port.toNat with
  | 0x00 => b.setIoState (IoState.writeControl value)
  | 0x01 => b.setIoState (IoState.writePortC value)
  | 0x02 => b.setIoState (IoState.writePortB value)
  | 0x03 => b.setIoState (IoState.writePortA value)
  | 0x04 => setPorts fun p => { p with cw2 := value }
  | 0x05 => setPorts fun p => { p with portC2 := value }
  | 0x06 => setPorts fun p => { p with portB2 := value }
  | 0x07 => setPorts fun p => { p with portA2 := value }
  | 0x08 | 0x09 | 0x0A | 0x0B =>
      -- `~_port & 3`
      call (dev.timerWrite ((~~~port &&& 3#8).toNat : Int) value)
  | 0x0C | 0x0D | 0x0E | 0x0F => b.setIoState fun s => { s with hwColor := value }
  | 0x10 => setMode 0
  | 0x11 => setMode 1
  | 0x14 | 0x15 => call (dev.ayWrite (port &&& 1#8) value)
  | 0x18 => call (dev.fdcWrite .data value)
  | 0x19 => call (dev.fdcWrite .sector value)
  | 0x1A => call (dev.fdcWrite .track value)
  | 0x1B => call (dev.fdcWrite .command value)
  | 0x1C => call (dev.fdcWrite .system value)
  | 0x20 => setMode 2
  | 0x21 => setMode 3
  | 0x40 => setMode 4
  | 0x41 => setMode 5
  | 0x80 => setMode 6
  | 0x81 => setMode 7
  | 0xED => call (dev.debugPortOut port value)
  | _ => b

def portOutCommit (dev : Devices δ) (b : Bus δ) : Bus δ :=
  let port := b.io.state.outport
  let value := b.io.state.outbyte
  { b with io := b.io.log (.commit port value) }.portOutHandling dev port value

def running (timer : Byte) : Bool := decide (0 < timer.toInt)

def countOut (dev : Devices δ) (b : Bus δ) : Bus δ :=
  if running b.io.state.outCommitTimer then
    let timer := b.io.state.outCommitTimer - 1
    let b := b.setIoState fun s => { s with outCommitTimer := timer }
    if timer = 0 then b.portOutCommit dev else b
  else b

def countPalette (colorIdx : BitVec 4) (s : IoState) : IoState :=
  if running s.paletteCommitTimer then
    let timer := s.paletteCommitTimer - 1
    let s := { s with paletteCommitTimer := timer }
    if timer = 0 then s.setColor colorIdx else s
  else s

def countDisplayMode (s : IoState) : IoState :=
  if running s.displayModeTimer then
    let timer := s.displayModeTimer - 1
    let s := { s with displayModeTimer := timer }
    if timer = 0 then { s with displayMode := s.reqDisplayMode } else s
  else s

def tryToCommit (dev : Devices δ) (colorIdx : BitVec 4) (b : Bus δ) : Bus δ :=
  (b.countOut dev).setIoState fun s => countDisplayMode (countPalette colorIdx s)

end Bus

end V6Emul
