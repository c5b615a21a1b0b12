import V6Emul.Cpu.State

/-!
# Device states that are recorded

The port and palette state of the I/O controller and the raster state of the
display, as they stand in the recorder's frame states.
-/

namespace V6Emul

structure Ports where
  cw : Byte
  portA : Byte
  portB : Byte
  portC : Byte
  cw2 : Byte
  portA2 : Byte
  portB2 : Byte
  portC2 : Byte
  deriving DecidableEq, Repr

structure IoState where
  palette : Fin 16 → Byte
  ports : Ports
  ruslatHistory : BitVec 32
  outport : Byte
  outbyte : Byte
  outCommitTimer : Byte
  paletteCommitTimer : Byte
  displayModeTimer : Byte
  joy0 : Byte
  joy1 : Byte
  hwColor : Byte
  reqDisplayMode : Bool
  brdColorIdx : BitVec 4
  displayMode : Bool
  ruslat : Bool
  deriving DecidableEq

structure DisplayUpdate where
  frameNum : BitVec 64
  irq : Bool
  framebufferIdx : BitVec 32
  scrollIdx : Byte
  deriving DecidableEq, Repr

def scrollDefault : Byte := 0xFF#8

/-! ## Value-initialised states -/

def CpuState.zero : CpuState where
  cc := 0
  pc := ⟨0, 0⟩
  sp := ⟨0, 0⟩
  a := 0
  f := .ofByte 0
  bc := ⟨0, 0⟩
  de := ⟨0, 0⟩
  hl := ⟨0, 0⟩
  ir := 0
  tmp := 0
  act := 0
  wz := ⟨0, 0⟩
  mc := 0
  inte := false
  iff := false
  hlta := false
  eiPending := false

def IoState.zero : IoState where
  palette := fun _ => 0
  ports := ⟨0, 0, 0, 0, 0, 0, 0, 0⟩
  ruslatHistory := 0
  outport := 0
  outbyte := 0
  outCommitTimer := 0
  paletteCommitTimer := 0
  displayModeTimer := 0
  joy0 := 0
  joy1 := 0
  hwColor := 0
  reqDisplayMode := false
  brdColorIdx := 0
  displayMode := false
  ruslat := false

def DisplayUpdate.init : DisplayUpdate := ⟨0, false, 0, scrollDefault⟩

end V6Emul
