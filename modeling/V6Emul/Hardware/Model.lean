import V6Emul.Cpu.Control
import V6Emul.Display.Model

/-!
# The hardware

The raster, the processor and the sound chips advance in turns: a slice of sixteen
pixels, one machine cycle, one tick of the audio.  An instruction is a number of
turns; what follows it depends on the loop that runs it.
-/

namespace V6Emul

/-- The processor with its memory and ports, and the display beside it. -/
structure Hardware (δ : Type) extends Sys (Io δ) where
  display : Display

namespace Hardware

variable {δ : Type}

/-- The hardware just after a restart, with the given RAM and no boot ROM. -/
def ofRam (ram : Ram) (devices : δ) : Hardware δ where
  toSys := .ofReset (.ofRam ram) (.new devices)
  display := .new

/-! ## One turn -/

def raster (h : Hardware δ) : Raster δ := ⟨⟨h.mem, h.io⟩, h.display⟩

def setRaster (h : Hardware δ) (r : Raster δ) : Hardware δ :=
  { h with mem := r.mem, io := r.io, display := r.display }

def setMem (h : Hardware δ) (mem : Memory) : Hardware δ := { h with mem := mem }

def setIo (h : Hardware δ) (io : Io δ) : Hardware δ := { h with io := io }

def rasterize (dev : Devices δ) (h : Hardware δ) : Hardware δ :=
  h.setRaster (h.raster.rasterize dev)

def executeMachineCycle (dev : Devices δ) (h : Hardware δ) : Hardware δ :=
  { h with toSys :=
      { h.toSys with io := h.io.log .cycle }.executeMachineCycle (Io.ports dev) h.display.update.irq }

def clockAudio (dev : Devices δ) (h : Hardware δ) : Hardware δ :=
  h.setIo { h.io with
    devices := dev.audioClock (h.io.state.ports.portC.getLsbD 0) h.io.devices }

def machineCycle (dev : Devices δ) (h : Hardware δ) : Hardware δ :=
  ((h.rasterize dev).executeMachineCycle dev).clockAudio dev

/-! ## Instructions -/

def cyclesMax : Nat := 7

/-- Turns until the instruction has been executed; `none` when `fuel` turns were not enough. -/
def runCycles (dev : Devices δ) : Nat → Hardware δ → Option (Hardware δ)
  | 0, _ => none
  | fuel + 1, h =>
      let h := h.machineCycle dev
      if h.isInstructionExecuted then some h else runCycles dev fuel h

/-- The part that both execution loops share: `DebugInit` and the turns of one instruction. -/
def executeCycles (dev : Devices δ) (h : Hardware δ) : Option (Hardware δ) :=
  (h.setMem h.mem.debugInit).runCycles dev cyclesMax

def checkMapping (h : Hardware δ) : Bool × Hardware δ :=
  let (exception, mem) := h.mem.isException
  if exception then (true, h.setMem mem.initRamDiskMapping) else (false, h.setMem mem)

abbrev DebugFunc (δ : Type) := Hardware δ → Bool × Hardware δ

/-- Without requests waiting; `debug` is `none` while no debugger is attached. -/
def executeInstruction (dev : Devices δ) (debug : Option (DebugFunc δ)) (h : Hardware δ) :
    Option (Bool × Hardware δ) :=
  (h.executeCycles dev).map fun h =>
    match debug with
    | none => h.checkMapping
    | some debug =>
        let (break_, h) := debug h
        if break_ then (true, h) else h.checkMapping

/-- `n` instructions, one `ExecuteInstruction` each, with no debugger attached. -/
def interactive (dev : Devices δ) : Nat → Hardware δ → Option (Hardware δ)
  | 0, h => some h
  | n + 1, h => (interactive dev n h).bind fun h => (h.executeInstruction dev none).map Prod.snd

/-! ## Headless runs -/

/-- The request of `RunHeadless` with its defaults; a limit of 0 is none. -/
structure HeadlessLimits where
  haltExit : Bool := false
  maxFrames : BitVec 64 := 0
  maxCycles : BitVec 64 := 0

structure HeadlessResult where
  cc : BitVec 64
  frames : BitVec 64
  halted : Bool
  pc : Addr
  sp : Addr
  af : Addr
  bc : Addr
  de : Addr
  hl : Addr

def headlessDone (limits : HeadlessLimits) (startCC startFrame : BitVec 64) (h : Hardware δ) : Bool :=
  (limits.haltExit && h.cpu.hlta) ||
    (decide (0 < limits.maxCycles) && decide (limits.maxCycles ≤ h.cpu.cc - startCC)) ||
    (decide (0 < limits.maxFrames) &&
      decide (limits.maxFrames ≤ h.display.update.frameNum - startFrame))

def headlessResult (startCC startFrame : BitVec 64) (h : Hardware δ) : HeadlessResult where
  cc := h.cpu.cc - startCC
  frames := h.display.update.frameNum - startFrame
  halted := h.cpu.hlta
  pc := h.cpu.pc.word
  sp := h.cpu.sp.word
  af := h.cpu.a ++ h.cpu.f.toByte
  bc := h.cpu.bc.word
  de := h.cpu.de.word
  hl := h.cpu.hl.word

/-- `none` when the loop has not ended after `fuel` instructions. -/
def runHeadlessLoop (dev : Devices δ) (limits : HeadlessLimits) (startCC startFrame : BitVec 64) :
    Nat → Hardware δ → Option (Hardware δ)
  | 0, _ => none
  | fuel + 1, h => (h.executeCycles dev).bind fun h =>
      if h.headlessDone limits startCC startFrame then some h
      else runHeadlessLoop dev limits startCC startFrame fuel h

def runHeadless (dev : Devices δ) (limits : HeadlessLimits) (fuel : Nat) (h : Hardware δ) :
    Option (HeadlessResult × Hardware δ) :=
  let startCC := h.cpu.cc
  let startFrame := h.display.update.frameNum
  (runHeadlessLoop dev limits startCC startFrame fuel h).map fun h =>
    (h.headlessResult startCC startFrame, h)

def headless (dev : Devices δ) : Nat → Hardware δ → Option (Hardware δ)
  | 0, h => some h
  | n + 1, h => (headless dev n h).bind (executeCycles dev)

/-! ## Reset and requests -/

def reset (dev : Devices δ) (h : Hardware δ) : Hardware δ where
  cpu := .reset
  mem := h.mem.init
  io := { h.io with state := h.io.state.init, devices := dev.audioReset h.io.devices }
  stores := h.stores
  display := h.display.reset

def restart (dev : Devices δ) (h : Hardware δ) : Hardware δ where
  cpu := .reset
  mem := h.mem.restart
  io := { h.io with devices := dev.audioReset h.io.devices }
  stores := h.stores
  display := h.display.reset

inductive HostReq (δ : Type) where
  | setDisplayBorderLeft (borderLeft : Int)
  | setDisplayIrqCommitPxl (irqCommitPxl : Int)
  | setIoPaletteCommitTime (paletteCommitTime : Int)
  | setIoPaletteEntry (index : BitVec 4) (hwColor : Byte)
  /-- `SET_MEM`, `SET_BYTE_GLOBAL` and the memory edits -/
  | setRam (ram : Ram)
  /-- keys and floppy disks -/
  | setDevices (devices : δ)

def handle (h : Hardware δ) : HostReq δ → Hardware δ
  | .setDisplayBorderLeft borderLeft =>
      { h with display := { h.display with borderLeft := borderLeft } }
  | .setDisplayIrqCommitPxl irqCommitPxl =>
      { h with display := { h.display with irqCommitPxl := irqCommitPxl } }
  | .setIoPaletteCommitTime paletteCommitTime =>
      h.setIo { h.io with paletteCommitTime := paletteCommitTime }
  | .setIoPaletteEntry index hwColor =>
      h.setIo (h.io.setState
        { h.io.state with palette := Function.update h.io.state.palette index.toFin hwColor })
  | .setRam ram => h.setMem { h.mem with ram := ram }
  | .setDevices devices => h.setIo { h.io with devices := devices }

end Hardware

end V6Emul
