import V6Emul.Devices
import V6Emul.Cpu.WriteRecord

/-!
# The recorder

One hardware state for every frame, in a circular buffer, together with the
stores made while the frame was executed.  Playing in reverse undoes the stores
frame by frame, playing forward redoes them.  The counters are `size_t`: natural
numbers below `2^64` with the wrap-around written out.
-/

namespace V6Emul

/-! ## Machine and frame states -/

/-- What the recorder is handed: the states behind its four pointers. -/
structure Machine where
  cpu : CpuState
  mem : Memory
  io : IoState
  display : DisplayUpdate

structure Snapshot where
  cpu : CpuState
  mem : Update
  io : IoState
  display : DisplayUpdate
  deriving DecidableEq

def Machine.snapshot (m : Machine) : Snapshot := ⟨m.cpu, m.mem.update, m.io, m.display⟩

/-- Copies a saved state into the machine; RAM and the mapping registers stay. -/
def Machine.restore (m : Machine) (s : Snapshot) : Machine :=
  { m with cpu := s.cpu, mem := { m.mem with update := s.mem }, io := s.io, display := s.display }

def Machine.setRam (m : Machine) (ram : Ram) : Machine :=
  { m with mem := { m.mem with ram := ram } }

/--
A state of the ring.  The vectors `globalAddrs`, `memWrites` and
`memBeforeWrites` always have equal lengths and are one list of entries.
-/
structure HwState where
  saved : Snapshot
  log : List Store
  deriving DecidableEq

def HwState.blank : HwState :=
  ⟨⟨.zero, ⟨⟨0⟩, 0, .ram⟩, .zero, .init⟩, []⟩

def sizeT : Nat := 2 ^ 64

def recordFramesMax : Nat := 50 * 60

structure Recorder where
  recordFrames : Nat
  recordFrames_le : recordFrames ≤ recordFramesMax
  stateIdx : Nat
  stateRecorded : Nat
  stateCurrent : Nat
  lastRecord : Bool
  states : Nat → HwState
  frameNum : BitVec 64
  ram : Ram
  version : BitVec 32

namespace Recorder

def formatVersion : BitVec 32 := 1

def new (recordFrames : Nat) : Recorder where
  recordFrames := min recordFrames recordFramesMax
  recordFrames_le := Nat.min_le_right _ _
  stateIdx := 0
  stateRecorded := 0
  stateCurrent := 0
  lastRecord := true
  states := fun _ => .blank
  frameNum := 0
  ram := fun _ => 0
  version := formatVersion

/-! ## Recording -/

/-- `(idx + 1) % m_recordFrames` -/
def nextIdx (r : Recorder) : Nat := (r.stateIdx + 1) % sizeT % r.recordFrames

def prevIdx (r : Recorder) : Nat := (r.stateIdx + sizeT - 1) % sizeT % r.recordFrames

def state (r : Recorder) : HwState := r.states r.stateIdx

def setState (r : Recorder) (s : HwState) : Recorder :=
  { r with states := Function.update r.states r.stateIdx s }

def storeState (r : Recorder) (m : Machine) : Recorder :=
  let stateIdx := r.nextIdx
  let stateCurrent := min ((r.stateCurrent + 1) % sizeT) r.recordFrames
  { r with
    stateIdx := stateIdx
    stateCurrent := stateCurrent
    stateRecorded := stateCurrent
    states := Function.update r.states stateIdx ⟨m.snapshot, []⟩
    ram := m.mem.ram }

def reset (r : Recorder) (m : Machine) : Recorder :=
  { r with
    stateIdx := 0
    stateRecorded := 0
    stateCurrent := 0
    lastRecord := true
    frameNum := m.display.frameNum }.storeState m

def cleanMemUpdates (r : Recorder) : Recorder :=
  { r with
    lastRecord := true
    stateRecorded := r.stateCurrent }.setState { r.state with log := [] }

def storeMemoryDiff (r : Recorder) (m : Machine) : Recorder :=
  r.setState { r.state with log := r.state.log ++ m.mem.debug.entries }

def update (r : Recorder) (m : Machine) : Recorder :=
  let r := if r.lastRecord then r else r.cleanMemUpdates
  let r := if m.mem.debug.writeLen = 0 then r else r.storeMemoryDiff m
  if r.frameNum ≠ m.display.frameNum then
    { r.storeState m with frameNum := m.display.frameNum }
  else r

/-! ## Playback -/

/-- One turn of the loop of `PlayForward` that is not its last. -/
def stepForward (r : Recorder) (m : Machine) : Recorder × Machine :=
  let ram := Ram.cells.redo m.mem.ram r.state.log
  let r := { r with stateIdx := r.nextIdx, stateCurrent := (r.stateCurrent + 1) % sizeT }
  (r, (m.setRam ram).restore r.state.saved)

def playForwardLoop : Nat → Recorder → Machine → Recorder × Machine
  | 0, r, m => (r, m)
  | frames + 1, r, m =>
      if r.stateCurrent = r.stateRecorded then ({ r with lastRecord := false }, m)
      else
        let (r, m) := r.stepForward m
        playForwardLoop frames r m

/-- `_frames` is an `int`; the loop does not run for a negative one. -/
def playForward (frames : Int) (r : Recorder) (m : Machine) : Recorder × Machine :=
  playForwardLoop frames.toNat r m

def stepReverse (r : Recorder) (m : Machine) : Recorder × Machine :=
  let r :=
    if r.lastRecord then { r with lastRecord := false }
    else { r with
      stateIdx := r.prevIdx
      stateCurrent := (r.stateCurrent + sizeT - 1) % sizeT }
  let m := m.restore r.state.saved
  (r, m.setRam (Ram.cells.undo m.mem.ram r.state.log))

def playReverseLoop : Nat → Recorder → Machine → Recorder × Machine
  | 0, r, m => (r, m)
  | frames + 1, r, m =>
      if r.stateCurrent = 1 ∧ r.lastRecord = false then (r, m)
      else
        let (r, m) := r.stepReverse m
        playReverseLoop frames r m

def playReverse (frames : Int) (r : Recorder) (m : Machine) : Recorder × Machine :=
  playReverseLoop frames.toNat r m

end Recorder

end V6Emul
