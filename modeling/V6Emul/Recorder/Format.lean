import V6Emul.Foundation.Layout
import V6Emul.Recorder.Model

/-!
# The recording format

A recording is the packed bytes of the recorder's fields and of its states, one
after another.  `Deserialize` walks over the data with a cursor, which is here
what is left of the data.  `none` stands for an access outside the data or the
ring, to which the language gives no meaning.
-/

namespace V6Emul

open Packed

/-! ## Structure layouts -/

namespace Layouts

open Packed.Layout

def regPair : Layout RegPair :=
  (byte.pair byte).iso (fun p => ⟨p.1, p.2⟩) (fun r => (r.l, r.h)) fun _ => rfl

def flags : Layout Flags := byte.iso Flags.ofByte Flags.toByte Flags.ofByte_toByte

def ints : Layout (BitVec 4 × Bool × Bool × Bool × Bool) :=
  byte.iso
    (fun b => (b.extractLsb' 0 4, b.getLsbD 4, b.getLsbD 5, b.getLsbD 6, b.getLsbD 7))
    (fun (mc, inte, iff, hlta, eiPending) =>
      BitVec.ofBool eiPending ++ BitVec.ofBool hlta ++ BitVec.ofBool iff ++ BitVec.ofBool inte ++ mc)
    (by
      rintro ⟨mc, inte, iff, hlta, eiPending⟩
      revert mc inte iff hlta eiPending
      decide)

def cpuState : Layout CpuState :=
  ((uint 8).pair <| regPair.pair <| regPair.pair <| flags.pair <| byte.pair <| regPair.pair <|
    regPair.pair <| regPair.pair <| byte.pair <| byte.pair <| byte.pair <| regPair.pair ints).iso
    (fun (cc, pc, sp, f, a, bc, de, hl, ir, tmp, act, wz, mc, inte, iff, hlta, eiPending) =>
      ⟨cc, pc, sp, a, f, bc, de, hl, ir, tmp, act, wz, mc, inte, iff, hlta, eiPending⟩)
    (fun s => (s.cc, s.pc, s.sp, s.f, s.a, s.bc, s.de, s.hl, s.ir, s.tmp, s.act, s.wz, s.mc, s.inte,
      s.iff, s.hlta, s.eiPending))
    fun _ => rfl

/-- `ramdiskIdx` and `memType`; the four bits above them are padding. -/
def diskAndType : Layout (BitVec 3 × MemType) :=
  byte.iso
    (fun b => (b.extractLsb' 0 3, if b.getLsbD 3 then .ram else .rom))
    (fun (ramdiskIdx, memType) =>
      0#4 ++ BitVec.ofBool (memType == .ram) ++ ramdiskIdx)
    (by
      rintro ⟨ramdiskIdx, memType⟩
      cases memType with
      | rom => revert ramdiskIdx; decide
      | ram => revert ramdiskIdx; decide)

def memUpdate : Layout Update :=
  (byte.pair diskAndType).iso (fun (mapping, ramdiskIdx, memType) => ⟨⟨mapping⟩, ramdiskIdx, memType⟩)
    (fun u => (u.mapping.data, u.ramdiskIdx, u.memType)) fun _ => rfl

def ports : Layout Ports :=
  (byte.pair <| byte.pair <| byte.pair <| byte.pair <| byte.pair <| byte.pair <| byte.pair byte).iso
    (fun (cw, portA, portB, portC, cw2, portA2, portB2, portC2) =>
      ⟨cw, portA, portB, portC, cw2, portA2, portB2, portC2⟩)
    (fun p => (p.cw, p.portA, p.portB, p.portC, p.cw2, p.portA2, p.portB2, p.portC2))
    fun _ => rfl

def ioBits : Layout (Bool × BitVec 4 × Bool × Bool) :=
  byte.iso
    (fun b => (b.getLsbD 0, b.extractLsb' 1 4, b.getLsbD 5, b.getLsbD 6))
    (fun (reqDisplayMode, brdColorIdx, displayMode, ruslat) =>
      0#1 ++ BitVec.ofBool ruslat ++ BitVec.ofBool displayMode ++ brdColorIdx ++
        BitVec.ofBool reqDisplayMode)
    (by
      rintro ⟨reqDisplayMode, brdColorIdx, displayMode, ruslat⟩
      revert reqDisplayMode brdColorIdx displayMode ruslat
      decide)

def ioState : Layout IoState :=
  ((Layout.bytes 16).pair <| ports.pair <| (uint 4).pair <| byte.pair <| byte.pair <| byte.pair <|
    byte.pair <| byte.pair <| byte.pair <| byte.pair <| byte.pair ioBits).iso
    (fun (palette, ports, ruslatHistory, outport, outbyte, outCommitTimer, paletteCommitTimer,
        displayModeTimer, joy0, joy1, hwColor, reqDisplayMode, brdColorIdx, displayMode, ruslat) =>
      ⟨palette, ports, ruslatHistory, outport, outbyte, outCommitTimer, paletteCommitTimer,
        displayModeTimer, joy0, joy1, hwColor, reqDisplayMode, brdColorIdx, displayMode, ruslat⟩)
    (fun s => (s.palette, s.ports, s.ruslatHistory, s.outport, s.outbyte, s.outCommitTimer,
      s.paletteCommitTimer, s.displayModeTimer, s.joy0, s.joy1, s.hwColor, s.reqDisplayMode,
      s.brdColorIdx, s.displayMode, s.ruslat))
    fun _ => rfl

def displayUpdate : Layout DisplayUpdate :=
  ((uint 8).pair <| bool.pair <| (uint 4).pair byte).iso
    (fun (frameNum, irq, framebufferIdx, scrollIdx) => ⟨frameNum, irq, framebufferIdx, scrollIdx⟩)
    (fun d => (d.frameNum, d.irq, d.framebufferIdx, d.scrollIdx)) fun _ => rfl

def snapshot : Layout Snapshot :=
  (cpuState.pair <| memUpdate.pair <| ioState.pair displayUpdate).iso
    (fun (cpu, mem, io, display) => ⟨cpu, mem, io, display⟩)
    (fun s => (s.cpu, s.mem, s.io, s.display)) fun _ => rfl

theorem size_snapshot : snapshot.size = 79 := rfl

def ram : Layout Ram := Layout.bytes memoryGlobalLen

end Layouts

namespace HwState

def encode (s : HwState) : List Byte :=
  Layouts.snapshot.encode s.saved ++
    ((Layout.uint 4).encode (BitVec.ofNat 32 s.log.length) ++
      (Layout.byte.encodeList (s.log.map UndoLog.Entry.value) ++
        (Layout.byte.encodeList (s.log.map UndoLog.Entry.before) ++
          (Layout.uint 4).encodeList (s.log.map fun e => BitVec.ofNat 32 e.addr))))

def entriesOf : List (BitVec 32) → List Byte → List Byte → List Store
  | a :: as, w :: ws, b :: bs => ⟨a.toNat, w, b⟩ :: entriesOf as ws bs
  | _, _, _ => []

def readLog (memUpdates : Nat) (data : List Byte) : Option (List Store × List Byte) := do
  let (memWrites, data) ← Layout.byte.readList memUpdates data
  let (memBeforeWrites, data) ← Layout.byte.readList memUpdates data
  let (globalAddrs, data) ← (Layout.uint 4).readList memUpdates data
  return (entriesOf globalAddrs memWrites memBeforeWrites, data)

def read (old : HwState) (data : List Byte) : Option (HwState × List Byte) := do
  let (saved, data) ← Layouts.snapshot.read data
  let (memUpdates, data) ← (Layout.uint 4).read data
  if memUpdates = 0 then some (⟨saved, old.log⟩, data)
  -- `assign` would be given a range that ends before it begins
  else if memUpdates.msb then none
  else do
    let (log, data) ← readLog memUpdates.toNat data
    return (⟨saved, log⟩, data)

end HwState

namespace Recorder

/-! ## Saving -/

def firstStateIdx (r : Recorder) : Nat :=
  (r.stateIdx + sizeT - r.stateRecorded + 1) % sizeT % r.recordFrames

def serializedStates (r : Recorder) : List HwState :=
  let stop := (r.firstStateIdx + r.stateRecorded) % sizeT
  (List.range' r.firstStateIdx (stop - r.firstStateIdx)).map
    fun stateIdx => r.states (stateIdx % r.recordFrames)

def serialize (r : Recorder) : List Byte :=
  if r.stateRecorded = 0 then []
  else
    (Layout.uint 4).encode r.version ++
      (Layouts.ram.encode r.ram ++
        ((Layout.uint 8).encode (BitVec.ofNat 64 r.stateRecorded) ++
          ((Layout.uint 8).encode (BitVec.ofNat 64 r.stateCurrent) ++
            (Layout.bool.encode r.lastRecord ++ r.serializedStates.flatMap HwState.encode))))

/-! ## Loading -/

def versionMask : BitVec 32 := 0xFF

def copyRam (ram : Ram) (bytes : List Byte) : Ram := fun i => bytes.getD i (ram i)

def restoreState (r : Recorder) (m : Machine) : Option (Recorder × Machine) :=
  if r.stateIdx < r.recordFrames then some ({ r with ram := m.mem.ram }, m.restore r.state.saved)
  else none

def readStates : Nat → Nat → Recorder → List Byte → Option Recorder
  | 0, _, r, _ => some r
  | count + 1, stateIdx, r, data => do
      let (state, data) ← (r.states (stateIdx % r.recordFrames)).read data
      readStates count (stateIdx + 1)
        { r with states := Function.update r.states (stateIdx % r.recordFrames) state } data

/-- What follows the version; the copy into RAM ends `MEMORY_GLOBAL_LEN` bytes into the data. -/
def deserializeBody (data : List Byte) (r : Recorder) (m : Machine) :
    Option (Recorder × Machine) := do
  let (bytes, _) ← Layout.byte.readList (memoryGlobalLen - 4) data
  let ram := copyRam r.ram bytes
  let (stateRecorded, data) ← (Layout.uint 8).read (data.drop memoryGlobalLen)
  let (stateCurrent, data) ← (Layout.uint 8).read data
  -- one byte of the data, but read as a `size_t`
  let (lastRecord, _) ← (Layout.uint 8).read data
  let r ← readStates stateRecorded.toNat 0
    { r with
      ram := ram
      stateRecorded := stateRecorded.toNat
      stateIdx := (stateRecorded.toNat + sizeT - 1) % sizeT
      stateCurrent := stateCurrent.toNat
      lastRecord := lastRecord != 0 } (data.drop 1)
  r.restoreState (m.setRam ram)

/-- The version is read as a `size_t`, of which the low half is kept. -/
def deserialize (data : List Byte) (r : Recorder) (m : Machine) : Option (Recorder × Machine) := do
  let (version, _) ← (Layout.uint 8).read data
  let r := { r with version := version.setWidth 32 }
  if r.version &&& versionMask ≠ formatVersion then some (r, m)
  else deserializeBody (data.drop 4) r m

end Recorder

end V6Emul
