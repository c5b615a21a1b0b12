import V6Emul.Emulator.Model
import V6Emul.Recorder.LiveEdge
import V6Emul.Recorder.Targets

/-!
# The counters of a session

The totals are an offset and a live counter that belongs to the processor or the
display.  A reset moves the live counter into the offset, but playback puts back the
counter of an earlier or a later frame.  The counters of the session are those of a
ledger as long as playback takes them back nowhere, and leaves them while the machine
runs.
-/

namespace V6Emul

namespace Emulator

variable {δ F : Type}

/-! ## The ledger -/

def resets : Input δ F → Bool
  | .request .reset => true
  | .request .restart => true
  | .request (.keyHandling op _) => decide (op ≠ .none)
  | .request (.loadRom ..) => true
  | .request (.mountFdd _ autoBoot) => autoBoot
  | _ => false

/-- The saved state that a play call or a load will set last, if it will set any. -/
def target (s : Emulator δ F) : Input δ F → Option Snapshot
  | .request (.recorderPlayForward frames) =>
      (s.debugger.recorder.forwardSlot frames.toNat).map fun i =>
        (s.debugger.recorder.states i).saved
  | .request (.recorderPlayReverse frames) =>
      (s.debugger.recorder.reverseSlot frames.toNat).map fun i =>
        (s.debugger.recorder.states i).saved
  | .request (.recorderDeserialize data) =>
      if (Packed.Layout.uint 4).decode (data.take 4) &&& Recorder.versionMask =
          Recorder.formatVersion then
        some (Recorder.lastSaved data)
      else none
  | _ => none

def plays : Input δ F → Bool
  | .request (.recorderPlayForward _) => true
  | .request (.recorderPlayReverse _) => true
  | .request (.recorderDeserialize _) => true
  | _ => false

def loads : Input δ F → Bool
  | .request (.loadRom ..) => true
  | _ => false

def moved (input : Input δ F) (before after : BitVec 64) : Nat :=
  if resets input then 0
  else if plays input then after.toNat - before.toNat
  else (after - before).toNat

/-- A transition out of `RUN`; `LOAD_ROM` stops the machine before it may run it again. -/
def leaves (s : Emulator δ F) (input : Input δ F) (t : Emulator δ F) : Bool :=
  decide (s.status = .run) && (decide (t.status ≠ .run) || loads input)

def enters (s : Emulator δ F) (input : Input δ F) (t : Emulator δ F) : Bool :=
  decide (t.status = .run) && (decide (s.status ≠ .run) || loads input)

/-- The counts of a session, as they should be; `executed` leaves out what playback moved over. -/
structure Ledger where
  cycles : Nat
  frames : Nat
  executed : Nat
  runStart : Nat
  lastRun : Nat

namespace Ledger

def zero : Ledger := ⟨0, 0, 0, 0, 0⟩

def next (l : Ledger) (s : Emulator δ F) (input : Input δ F) (t : Emulator δ F) : Ledger :=
  let cycles := moved input s.hardware.cpu.cc t.hardware.cpu.cc
  let frames :=
    moved input s.hardware.display.update.frameNum t.hardware.display.update.frameNum
  let executed := l.executed + if plays input then 0 else cycles
  { cycles := l.cycles + cycles
    frames := l.frames + frames
    executed := executed
    runStart := if enters s input t then executed else l.runStart
    lastRun := if leaves s input t then executed - l.runStart else l.lastRun }

def Reportable (l : Ledger) : Prop := l.cycles < 2 ^ 53 ∧ l.frames < 2 ^ 53

end Ledger

section Steps

variable [BEq F] [Zero F]

def stepCounted (dev : Devices δ) (fuel : Nat) (s : Emulator δ F × Ledger) (input : Input δ F) :
    Option (Emulator δ F × Ledger) :=
  (s.1.step dev fuel input).map fun t => (t, s.2.next s.1 input t)

/-- The state of a session after its first `n` steps. -/
def after (dev : Devices δ) (fuel : Nat) (s : Emulator δ F) (inputs : List (Input δ F)) (n : Nat) :
    Option (Emulator δ F × Ledger) :=
  Runs.exec (stepCounted dev fuel) (s.beginSession, .zero) (inputs.take n)

structure Counted (dev : Devices δ) (fuel : Nat) (s : Emulator δ F) (inputs : List (Input δ F)) :
    Prop where
  answers : ∀ n t l, after dev fuel s inputs n = some (t, l) → l.Reportable →
    ∀ uptimeMs ≤ maxSafeInteger, t.sessionId ≤ maxSafeInteger →
      ∃ stats, t.getHardwareStats uptimeMs = .ok stats
  monotone : ∀ n n' t t' l l', n ≤ n' → after dev fuel s inputs n = some (t, l) →
    after dev fuel s inputs n' = some (t', l') → l'.Reportable →
    ∀ uptimeMs uptimeMs' stats stats', t.getHardwareStats uptimeMs = .ok stats →
      t'.getHardwareStats uptimeMs' = .ok stats' →
      stats.cpuCycles ≤ stats'.cpuCycles ∧ stats.frameNumber ≤ stats'.frameNumber
  lastRun : ∀ n t l, after dev fuel s inputs n = some (t, l) →
    t.lastRunCycles = BitVec.ofNat 64 l.lastRun

def closes : Input δ F → Bool
  | .request .internalBeginSession => true
  | .request .exit => true
  | _ => false

/-- What a session must keep to: the saved state at which a playback will end is not behind
the live one, and has the clock of a running machine. -/
structure Steady (s : Emulator δ F) (input : Input δ F) : Prop where
  lasts : closes input = false
  forward : ∀ saved ∈ s.target input,
    s.hardware.cpu.cc ≤ saved.cpu.cc ∧
      s.hardware.display.update.frameNum ≤ saved.display.frameNum ∧
        (s.status = .run → saved.cpu.cc = s.hardware.cpu.cc)

/-! ## One step -/

structure Within (s t : Emulator δ F) : Prop where
  status : t.status = s.status
  cycleOffset : t.cycleOffset = s.cycleOffset
  frameOffset : t.frameOffset = s.frameOffset
  sessionStartCycles : t.sessionStartCycles = s.sessionStartCycles
  sessionStartFrames : t.sessionStartFrames = s.sessionStartFrames
  runStartCycles : t.runStartCycles = s.runStartCycles
  lastRunCycles : t.lastRunCycles = s.lastRunCycles

omit [BEq F] [Zero F] in
theorem Within.refl (s : Emulator δ F) : s.Within s := ⟨rfl, rfl, rfl, rfl, rfl, rfl, rfl⟩

omit [BEq F] [Zero F] in
theorem Within.trans {s t u : Emulator δ F} (hst : s.Within t) (htu : t.Within u) : s.Within u :=
  ⟨htu.1.trans hst.1, htu.2.trans hst.2, htu.3.trans hst.3, htu.4.trans hst.4, htu.5.trans hst.5,
    htu.6.trans hst.6, htu.7.trans hst.7⟩

omit [BEq F] [Zero F] in
theorem within_recordStop (s : Emulator δ F) (e : StopEvent) : s.Within (s.recordStop e) :=
  ⟨rfl, rfl, rfl, rfl, rfl, rfl, rfl⟩

theorem within_debug (lua : LuaCheck F) (s : Emulator δ F) : s.Within (s.debug lua).2 := by
  rw [debug]
  cases (s.checkBreaks lua).1 <;> exact ⟨rfl, rfl, rfl, rfl, rfl, rfl, rfl⟩

omit [BEq F] [Zero F] in
theorem within_checkException (s : Emulator δ F) : s.Within s.checkException.2 := by
  rw [checkException]
  split <;> exact ⟨rfl, rfl, rfl, rfl, rfl, rfl, rfl⟩

theorem within_executeInstruction {dev : Devices δ} {lua : LuaCheck F} {s : Emulator δ F}
    {r : Bool × Emulator δ F} (h : s.executeInstruction dev lua = some r) : s.Within r.2 := by
  rw [executeInstruction, Option.map_eq_some_iff] at h
  obtain ⟨hardware, -, h⟩ := h
  have hstart : s.Within { s with hardware := hardware } := ⟨rfl, rfl, rfl, rfl, rfl, rfl, rfl⟩
  have hhooked : s.Within ({ s with hardware := hardware }.hook lua).2 := by
    rw [hook]
    split
    · exact hstart.trans (within_debug lua _)
    · exact hstart
  dsimp only at h
  split at h
  · cases h
    exact hhooked
  · cases h
    exact hhooked.trans (within_checkException _)

theorem within_executeFrameLoop {dev : Devices δ} {lua : Nat → LuaCheck F} {frameNum : BitVec 64}
    {fuel : Nat} {s t : Emulator δ F} (h : executeFrameLoop dev lua frameNum fuel s = some t) :
    s.Within t := by
  induction fuel generalizing s with
  | zero => cases h
  | succ fuel ih =>
      rw [executeFrameLoop] at h
      obtain ⟨r, hr, h⟩ := Option.bind_eq_some_iff.mp h
      have hfirst := within_executeInstruction hr
      split at h
      · exact hfirst.trans (ih h)
      · cases h
        exact hfirst

end Steps

structure Moves (s : Emulator δ F) (input : Input δ F) (t : Emulator δ F) : Prop where
  cycles : t.totalCycles =
    s.totalCycles + BitVec.ofNat 64 (moved input s.hardware.cpu.cc t.hardware.cpu.cc)
  frames : t.totalFrames = s.totalFrames + BitVec.ofNat 64
    (moved input s.hardware.display.update.frameNum t.hardware.display.update.frameNum)
  startCycles : t.sessionStartCycles = s.sessionStartCycles
  startFrames : t.sessionStartFrames = s.sessionStartFrames
  lastRun : t.lastRunCycles =
    if leaves s input t then t.totalCycles - s.runStartCycles else s.lastRunCycles
  runStart : t.runStartCycles = if enters s input t then t.totalCycles else s.runStartCycles
  parked : plays input = true → s.status = .run → t.totalCycles = s.totalCycles

theorem count_up (offset before after : BitVec 64) :
    offset + after = offset + before + BitVec.ofNat 64 (after - before).toNat := by
  rw [BitVec.ofNat_toNat, BitVec.setWidth_eq, BitVec.add_assoc, BitVec.add_comm before,
    BitVec.sub_add_cancel]

theorem count_forward {offset before after : BitVec 64} (hle : before ≤ after) :
    offset + after = offset + before + BitVec.ofNat 64 (after.toNat - before.toNat) := by
  have hsub : BitVec.ofNat 64 (after.toNat - before.toNat) = after - before := by
    apply BitVec.eq_of_toNat_eq
    rw [BitVec.toNat_sub_of_le hle, BitVec.toNat_ofNat]
    have hlt := after.isLt
    omega
  rw [hsub, BitVec.add_assoc, BitVec.add_comm before, BitVec.sub_add_cancel]

structure Plain (input : Input δ F) : Prop where
  resets : resets input = false
  plays : plays input = false
  loads : loads input = false

theorem Plain.moved {input : Input δ F} (h : Plain input) (before after : BitVec 64) :
    moved input before after = (after - before).toNat := by
  rw [Emulator.moved, h.resets, h.plays]
  rfl

theorem moves_of_within {s t : Emulator δ F} {input : Input δ F} (hplain : Plain input)
    (h : s.Within t) : Moves s input t := by
  have hstatus : t.status = s.status := h.status
  constructor
  · have hoffset : t.cycleOffset = s.cycleOffset := h.cycleOffset
    rw [totalCycles, hoffset, hplain.moved]
    exact count_up _ _ _
  · have hoffset : t.frameOffset = s.frameOffset := h.frameOffset
    rw [totalFrames, hoffset, hplain.moved]
    exact count_up _ _ _
  · exact h.sessionStartCycles
  · exact h.sessionStartFrames
  · have hleaves : leaves s input t = false := by
      rw [leaves, hstatus, hplain.loads]
      cases s.status <;> rfl
    rw [hleaves]
    exact h.lastRunCycles
  · have henters : enters s input t = false := by
      rw [enters, hstatus, hplain.loads]
      cases s.status <;> rfl
    rw [henters]
    exact h.runStartCycles
  · intro hplays
    rw [hplain.plays] at hplays
    cases hplays

theorem moves_of_halt {s u t : Emulator δ F} {input : Input δ F} (hplain : Plain input)
    (hsu : s.Within u) (hut : u.halt.Within t) (hhardware : t.hardware = u.hardware) :
    Moves s input t := by
  have hmoves := moves_of_within hplain hsu
  have hcycles : t.totalCycles = u.totalCycles := by
    rw [totalCycles, hhardware, hut.cycleOffset]
    rfl
  have hframes : t.totalFrames = u.totalFrames := by
    rw [totalFrames, hhardware, hut.frameOffset]
    rfl
  have hstatus : t.status = .stop := hut.status
  constructor
  · rw [hcycles, hhardware]
    exact hmoves.cycles
  · rw [hframes, hhardware]
    exact hmoves.frames
  · exact hut.sessionStartCycles.trans hmoves.startCycles
  · exact hut.sessionStartFrames.trans hmoves.startFrames
  · have hleaves : leaves s input t = decide (s.status = .run) := by
      simp [leaves, hstatus]
    have hlast : t.lastRunCycles =
        if u.status = .run then u.totalCycles - u.runStartCycles else u.lastRunCycles :=
      hut.lastRunCycles
    have hrunStart : u.runStartCycles = s.runStartCycles := hsu.runStartCycles
    have hlastRun : u.lastRunCycles = s.lastRunCycles := hsu.lastRunCycles
    have hrunning : u.status = s.status := hsu.status
    rw [hlast, hleaves, hcycles, hrunStart, hlastRun, hrunning]
    simp
  · have henters : enters s input t = false := by
      simp [enters, hstatus]
    rw [henters]
    exact hut.runStartCycles.trans hsu.runStartCycles
  · intro hplays
    rw [hplain.plays] at hplays
    cases hplays

@[simp] theorem totalCycles_reset (dev : Devices δ) (s : Emulator δ F) :
    (s.reset dev).totalCycles = s.totalCycles := BitVec.add_zero _

@[simp] theorem totalFrames_reset (dev : Devices δ) (s : Emulator δ F) :
    (s.reset dev).totalFrames = s.totalFrames := BitVec.add_zero _

@[simp] theorem totalCycles_restart (dev : Devices δ) (s : Emulator δ F) :
    (s.restart dev).totalCycles = s.totalCycles := BitVec.add_zero _

@[simp] theorem totalFrames_restart (dev : Devices δ) (s : Emulator δ F) :
    (s.restart dev).totalFrames = s.totalFrames := BitVec.add_zero _

theorem moves_of_reset {s t : Emulator δ F} {input : Input δ F} (hresets : resets input = true)
    (hcycles : t.totalCycles = s.totalCycles)
    (hframes : t.totalFrames = s.totalFrames)
    (hstart : t.sessionStartCycles = s.sessionStartCycles ∧
      t.sessionStartFrames = s.sessionStartFrames)
    (hlast : t.lastRunCycles =
      if leaves s input t then t.totalCycles - s.runStartCycles else s.lastRunCycles)
    (hrunStart : t.runStartCycles =
      if enters s input t then t.totalCycles else s.runStartCycles) : Moves s input t := by
  have hmoved : ∀ before after, moved input before after = 0 := by
    intro before after
    rw [moved, hresets]
    rfl
  refine ⟨?_, ?_, hstart.1, hstart.2, hlast, hrunStart, fun _ _ => hcycles⟩
  · rw [hmoved, hcycles]
    exact (BitVec.add_zero _).symm
  · rw [hmoved, hframes]
    exact (BitVec.add_zero _).symm

theorem moves_of_same_status {s t : Emulator δ F} {input : Input δ F}
    (hresets : resets input = true) (hloads : loads input = false)
    (hcycles : t.totalCycles = s.totalCycles) (hframes : t.totalFrames = s.totalFrames)
    (hstatus : t.status = s.status)
    (hstart : t.sessionStartCycles = s.sessionStartCycles ∧
      t.sessionStartFrames = s.sessionStartFrames)
    (hlast : t.lastRunCycles = s.lastRunCycles) (hrunStart : t.runStartCycles = s.runStartCycles) :
    Moves s input t := by
  refine moves_of_reset hresets hcycles hframes hstart ?_ ?_
  · have hleaves : leaves s input t = false := by
      rw [leaves, hstatus, hloads]
      cases s.status <;> rfl
    rw [hleaves]
    exact hlast
  · have henters : enters s input t = false := by
      rw [enters, hstatus, hloads]
      cases s.status <;> rfl
    rw [henters]
    exact hrunStart

theorem moves_mountFdd (dev : Devices δ) (devices : δ) (s : Emulator δ F) :
    Moves s (.request (.mountFdd devices true)) ((s.setDevices devices).reset dev).run := by
  refine moves_of_reset rfl ?_ ?_ ⟨rfl, rfl⟩ ?_ ?_
  · exact totalCycles_reset dev (s.setDevices devices)
  · exact totalFrames_reset dev (s.setDevices devices)
  · have hleaves : leaves s (.request (.mountFdd devices true))
        ((s.setDevices devices).reset dev).run = false := by
      simp [leaves, run, loads]
    rw [hleaves]
    rfl
  · cases hstatus : s.status <;>
      simp [enters, run, reset, setDevices, setTraceLog, setDebugger, saveCounters, setHardware,
        hstatus, loads, totalCycles]

structure Reloaded (s u : Emulator δ F) : Prop where
  status : u.status = .stop
  cycles : u.totalCycles = s.totalCycles
  frames : u.totalFrames = s.totalFrames
  startCycles : u.sessionStartCycles = s.sessionStartCycles
  startFrames : u.sessionStartFrames = s.sessionStartFrames
  runStart : u.runStartCycles = s.runStartCycles
  lastRun : u.lastRunCycles =
    if s.status = .run then s.totalCycles - s.runStartCycles else s.lastRunCycles

theorem loadRom_cases {dev : Devices δ} {data : List Byte} {addr : Addr} {autorun : Bool}
    {s t : Emulator δ F} (h : s.loadRom dev data addr autorun = some t) :
    ∃ u, s.Reloaded u ∧ t = if autorun then u.run else u := by
  rw [loadRom] at h
  split at h
  · cases h
    refine ⟨_, ?_, rfl⟩
    exact ⟨rfl, totalCycles_restart dev (s.stop.setRam _), totalFrames_restart dev (s.stop.setRam _),
      rfl, rfl, rfl, rfl⟩
  · cases h

theorem moves_loadRom {dev : Devices δ} {data : List Byte} {addr : Addr} {autorun : Bool}
    {s t : Emulator δ F} (h : s.loadRom dev data addr autorun = some t) :
    Moves s (.request (.loadRom data addr autorun)) t := by
  obtain ⟨u, hu, rfl⟩ := loadRom_cases h
  cases autorun with
  | false =>
      refine moves_of_reset rfl hu.cycles hu.frames ⟨hu.startCycles, hu.startFrames⟩ ?_ ?_
      · simp [leaves, loads, hu.lastRun, hu.cycles]
      · simp [enters, hu.status, hu.runStart]
  | true =>
      refine moves_of_reset rfl hu.cycles hu.frames ⟨hu.startCycles, hu.startFrames⟩ ?_ ?_
      · have hlast : u.run.lastRunCycles = u.lastRunCycles := rfl
        have hcycles : u.run.totalCycles = u.totalCycles := rfl
        simp [leaves, loads, hlast, hcycles, hu.lastRun, hu.cycles]
      · have hrunStart : u.run.runStartCycles = u.run.totalCycles := by
          simp [run, hu.status, totalCycles]
        rw [if_pos rfl, hrunStart]
        simp [enters, loads, run]

/-- The counters that a play call puts back are no smaller, and the clock of a running machine
stays. -/
theorem moves_play {s t : Emulator δ F} {input : Input δ F} {m : Machine}
    (hresets : resets input = false) (hplays : plays input = true) (hloads : loads input = false)
    (hwithin : s.Within t) (hcc : t.hardware.cpu.cc = m.cpu.cc)
    (hframe : t.hardware.display.update.frameNum = m.display.frameNum)
    (hsteady : Steady s input)
    (hplayed : m.snapshot = (s.target input).getD s.hardware.machine.snapshot) :
    Moves s input t := by
  have hforward : s.hardware.cpu.cc ≤ m.cpu.cc ∧
      s.hardware.display.update.frameNum ≤ m.display.frameNum ∧
        (s.status = .run → m.cpu.cc = s.hardware.cpu.cc) := by
    have hcpu : m.cpu = _ := congrArg Snapshot.cpu hplayed
    have hdisplay : m.display = _ := congrArg Snapshot.display hplayed
    rw [hcpu, hdisplay]
    cases htarget : s.target input with
    | none => exact ⟨BitVec.le_refl _, BitVec.le_refl _, fun _ => rfl⟩
    | some saved => exact hsteady.forward saved (Option.mem_def.mpr htarget)
  have hmoved : ∀ before after, moved input before after = after.toNat - before.toNat := by
    intro before after
    rw [moved, hresets, hplays]
    rfl
  constructor
  · rw [totalCycles, hwithin.cycleOffset, hmoved, hcc]
    exact count_forward hforward.1
  · rw [totalFrames, hwithin.frameOffset, hmoved, hframe]
    exact count_forward hforward.2.1
  · exact hwithin.sessionStartCycles
  · exact hwithin.sessionStartFrames
  · have hleaves : leaves s input t = false := by
      rw [leaves, hwithin.status, hloads]
      cases s.status <;> rfl
    rw [hleaves]
    exact hwithin.lastRunCycles
  · have henters : enters s input t = false := by
      rw [enters, hwithin.status, hloads]
      cases s.status <;> rfl
    rw [henters]
    exact hwithin.runStartCycles
  · intro _ hrun
    rw [totalCycles, totalCycles, hwithin.cycleOffset, hcc, hforward.2.2 hrun]

theorem played_forward (frames : Int) (s : Emulator δ F) :
    (s.debugger.recorder.playForward frames s.hardware.machine).2.snapshot =
      (s.target (.request (.recorderPlayForward frames))).getD s.hardware.machine.snapshot := by
  rw [Recorder.playForward, (Recorder.playForwardLoop_snapshot _ _ _).2, target]
  cases s.debugger.recorder.forwardSlot frames.toNat <;> rfl

theorem played_reverse (frames : Int) (s : Emulator δ F) :
    (s.debugger.recorder.playReverse frames s.hardware.machine).2.snapshot =
      (s.target (.request (.recorderPlayReverse frames))).getD s.hardware.machine.snapshot := by
  rw [Recorder.playReverse, (Recorder.playReverseLoop_snapshot _ _ _).2, target]
  cases s.debugger.recorder.reverseSlot frames.toNat <;> rfl

theorem frameNum_play (result : Recorder × Machine) (s : Emulator δ F) :
    (s.play result).hardware.display.update.frameNum = result.2.display.frameNum :=
  Raster.frameNum_frameBuffUpdate (s.hardware.setMachine result.2).raster

section Run

variable [BEq F] [Zero F]

theorem within_scriptRunOnce (scriptId : Id) (runs : LuaRun F) (s : Emulator δ F) :
    s.Within (s.scriptRunOnce scriptId runs) ∨
      ∃ u, s.Within u ∧ u.halt.Within (s.scriptRunOnce scriptId runs) ∧
        (s.scriptRunOnce scriptId runs).hardware = u.hardware := by
  rw [scriptRunOnce]
  rcases s.debugger.scripts.runOnce scriptId runs with ⟨error | result, scripts⟩
  · exact .inl ⟨rfl, rfl, rfl, rfl, rfl, rfl, rfl⟩
  · have hscripts : s.Within (s.setDebugger fun d => { d with scripts := scripts }) :=
      ⟨rfl, rfl, rfl, rfl, rfl, rfl, rfl⟩
    dsimp only
    split
    · exact .inr ⟨_, hscripts, ⟨rfl, rfl, rfl, rfl, rfl, rfl, rfl⟩, rfl⟩
    · exact .inl hscripts

omit [BEq F] [Zero F] in
theorem within_editMemory (op : MemoryEditOp) (s : Emulator δ F) : s.Within (s.editMemory op) := by
  cases op <;> simp only [editMemory] <;> try split
  all_goals exact ⟨rfl, rfl, rfl, rfl, rfl, rfl, rfl⟩

omit [BEq F] [Zero F] in
theorem moves_deserialize {data : List Byte} {s t : Emulator δ F}
    (hsteady : Steady s (.request (.recorderDeserialize data) : Input δ F))
    (h : s.deserialize data = some t) : Moves s (.request (.recorderDeserialize data)) t := by
  obtain ⟨result, hresult, h⟩ := Option.map_eq_some_iff.mp h
  have hsnapshot := (Recorder.deserialize_snapshot hresult).2
  have hplayed : result.2.snapshot = (s.target (.request (.recorderDeserialize data))).getD
      s.hardware.machine.snapshot := by
    rw [hsnapshot, target]
    split <;> rfl
  split at h
  · cases h
    exact moves_play rfl rfl rfl ⟨rfl, rfl, rfl, rfl, rfl, rfl, rfl⟩ rfl (frameNum_play result s)
      hsteady hplayed
  · rename_i hversion
    have hnone : s.target (.request (.recorderDeserialize data)) = none := by
      rw [target, ← Recorder.deserialize_version hresult, if_neg hversion]
    cases h
    exact moves_play (m := s.hardware.machine) rfl rfl rfl ⟨rfl, rfl, rfl, rfl, rfl, rfl, rfl⟩ rfl
      rfl hsteady (by rw [hnone, Option.getD_none])

omit [BEq F] [Zero F] in
theorem moves_run (s : Emulator δ F) : Moves s (.request .run) s.run := by
  have hstays : Moves s (.request .run) s := moves_of_within ⟨rfl, rfl, rfl⟩ (.refl s)
  refine ⟨hstays.cycles, hstays.frames, rfl, rfl, ?_, ?_, fun h => Bool.noConfusion h⟩
  · have hleaves : leaves s (.request .run) s.run = false := by
      simp [leaves, run, loads]
    rw [hleaves]
    rfl
  · cases hstatus : s.status <;> simp [enters, run, hstatus, loads, totalCycles]

theorem moves_executeRunning {dev : Devices δ} {lua : LuaCheck F} {s t : Emulator δ F}
    (h : s.executeRunning dev lua = some t) : Moves s (.instruction lua) t := by
  rw [executeRunning] at h
  split at h
  · obtain ⟨⟨broke, u⟩, hu, h⟩ := Option.map_eq_some_iff.mp h
    have hwithin := within_executeInstruction hu
    cases broke with
    | true =>
        cases h
        exact moves_of_halt ⟨rfl, rfl, rfl⟩ hwithin (.refl _) rfl
    | false =>
        cases h
        exact moves_of_within ⟨rfl, rfl, rfl⟩ hwithin
  · cases h

theorem moves {dev : Devices δ} {fuel : Nat} {s t : Emulator δ F} {input : Input δ F}
    (hsteady : Steady s input) (h : s.step dev fuel input = some t) : Moves s input t := by
  cases input with
  | instruction lua => exact moves_executeRunning h
  | request req =>
      rw [step] at h
      cases req with
      | internalBeginSession => cases hsteady.lasts
      | exit => cases hsteady.lasts
      | run =>
          cases h
          exact moves_run s
      | stop =>
          cases h
          exact moves_of_halt ⟨rfl, rfl, rfl⟩ (.refl s) ⟨rfl, rfl, rfl, rfl, rfl, rfl, rfl⟩ rfl
      | reset =>
          cases h
          exact moves_of_same_status rfl rfl (s.totalCycles_reset dev) (s.totalFrames_reset dev) rfl
            ⟨rfl, rfl⟩ rfl rfl
      | restart =>
          cases h
          exact moves_of_same_status rfl rfl (s.totalCycles_restart dev)
            (s.totalFrames_restart dev) rfl ⟨rfl, rfl⟩ rfl rfl
      | executeInstr lua =>
          obtain ⟨⟨broke, u⟩, hu, h⟩ := Option.map_eq_some_iff.mp h
          have hwithin := within_executeInstruction hu
          cases broke with
          | false =>
              cases h
              exact moves_of_within ⟨rfl, rfl, rfl⟩ (hwithin.trans (u.within_recordStop .step))
          | true =>
              cases h
              exact moves_of_within ⟨rfl, rfl, rfl⟩ hwithin
      | executeFrame lua =>
          obtain ⟨u, hu, h⟩ := Option.map_eq_some_iff.mp h
          cases h
          exact moves_of_within ⟨rfl, rfl, rfl⟩
            ((within_executeFrameLoop hu).trans (u.within_recordStop .frameStep))
      | executeFrameNoBreaks lua =>
          obtain ⟨u, hu, h⟩ := Option.map_eq_some_iff.mp h
          cases h
          exact moves_of_within ⟨rfl, rfl, rfl⟩
            ((within_executeFrameLoop hu).trans (u.within_recordStop .frameStep))
      | runHeadless limits =>
          obtain ⟨r, -, h⟩ := Option.map_eq_some_iff.mp h
          cases h
          exact moves_of_within ⟨rfl, rfl, rfl⟩ ⟨rfl, rfl, rfl, rfl, rfl, rfl, rfl⟩
      | host req =>
          refine moves_of_within ⟨rfl, rfl, rfl⟩ ?_
          cases req with
          | setIoPaletteEntry index hwColor =>
              rw [handle] at h
              cases h
              split <;> exact ⟨rfl, rfl, rfl, rfl, rfl, rfl, rfl⟩
          | _ =>
              cases h
              exact ⟨rfl, rfl, rfl, rfl, rfl, rfl, rfl⟩
      | keyHandling op devices =>
          cases op with
          | none =>
              cases h
              exact moves_of_within ⟨rfl, rfl, rfl⟩ ⟨rfl, rfl, rfl, rfl, rfl, rfl, rfl⟩
          | reset =>
              cases h
              exact moves_of_same_status rfl rfl (totalCycles_reset dev (s.setDevices devices))
                (totalFrames_reset dev (s.setDevices devices)) rfl ⟨rfl, rfl⟩ rfl rfl
          | restart =>
              cases h
              exact moves_of_same_status rfl rfl (totalCycles_restart dev (s.setDevices devices))
                (totalFrames_restart dev (s.setDevices devices)) rfl ⟨rfl, rfl⟩ rfl rfl
      | loadRom data addr autorun => exact moves_loadRom h
      | mountFdd devices autoBoot =>
          cases h
          cases autoBoot with
          | true => exact moves_mountFdd dev devices s
          | false => exact moves_of_within ⟨rfl, rfl, rfl⟩ ⟨rfl, rfl, rfl, rfl, rfl, rfl, rfl⟩
      | debugReset resetRecorder =>
          cases h
          cases resetRecorder <;>
            exact moves_of_within ⟨rfl, rfl, rfl⟩ ⟨rfl, rfl, rfl, rfl, rfl, rfl, rfl⟩
      | recorderPlayForward frames =>
          cases h
          exact moves_play rfl rfl rfl ⟨rfl, rfl, rfl, rfl, rfl, rfl, rfl⟩ rfl
            (frameNum_play _ (s.setTraceLog .reset)) hsteady (played_forward frames s)
      | recorderPlayReverse frames =>
          cases h
          exact moves_play rfl rfl rfl ⟨rfl, rfl, rfl, rfl, rfl, rfl, rfl⟩ rfl
            (frameNum_play _ (s.setTraceLog .reset)) hsteady (played_reverse frames s)
      | recorderDeserialize data => exact moves_deserialize hsteady h
      | memoryEdits op =>
          cases h
          exact moves_of_within ⟨rfl, rfl, rfl⟩ (s.within_editMemory op)
      | scriptRunOnce scriptId runs =>
          cases h
          rcases s.within_scriptRunOnce scriptId runs with hwithin | ⟨u, hsu, hut, hhardware⟩
          · exact moves_of_within ⟨rfl, rfl, rfl⟩ hwithin
          · exact moves_of_halt ⟨rfl, rfl, rfl⟩ hsu hut hhardware
      | traceLogFilter texts addressPattern instructionPattern =>
          rw [handle] at h
          split at h <;> cases h <;>
            exact moves_of_within ⟨rfl, rfl, rfl⟩ ⟨rfl, rfl, rfl, rfl, rfl, rfl, rfl⟩
      | _ =>
          cases h
          exact moves_of_within ⟨rfl, rfl, rfl⟩ ⟨rfl, rfl, rfl, rfl, rfl, rfl, rfl⟩

end Run

/-! ## The invariant of a session -/

structure Balanced (s : Emulator δ F) (l : Ledger) : Prop where
  cycles : s.totalCycles = s.sessionStartCycles + BitVec.ofNat 64 l.cycles
  frames : s.totalFrames = s.sessionStartFrames + BitVec.ofNat 64 l.frames
  lastRun : s.lastRunCycles = BitVec.ofNat 64 l.lastRun
  running : s.status = .run →
    s.totalCycles = s.runStartCycles + BitVec.ofNat 64 (l.executed - l.runStart)
  runStart_le : l.runStart ≤ l.executed
  lastRun_le : l.lastRun ≤ l.executed
  executed_le : l.executed ≤ l.cycles

theorem balanced_beginSession (s : Emulator δ F) : Balanced s.beginSession .zero where
  cycles := (BitVec.add_zero _).symm
  frames := (BitVec.add_zero _).symm
  lastRun := rfl
  running := fun _ => (BitVec.add_zero _).symm
  runStart_le := Nat.le_refl 0
  lastRun_le := Nat.le_refl 0
  executed_le := Nat.le_refl 0

theorem ofNat_add_assoc (x : BitVec 64) (a b : Nat) :
    x + BitVec.ofNat 64 a + BitVec.ofNat 64 b = x + BitVec.ofNat 64 (a + b) := by
  rw [BitVec.add_assoc, ← BitVec.ofNat_add]

theorem Balanced.since {s t : Emulator δ F} {l : Ledger} {input : Input δ F} (h : Balanced s l)
    (hmoves : Moves s input t) (hrun : s.status = .run) :
    t.totalCycles =
      s.runStartCycles + BitVec.ofNat 64 ((l.next s input t).executed - l.runStart) := by
  have hle := h.runStart_le
  rw [Ledger.next]
  dsimp only
  cases hplays : plays input with
  | true =>
      rw [if_pos rfl, hmoves.parked hplays hrun, h.running hrun, Nat.add_zero]
  | false =>
      rw [if_neg Bool.false_ne_true, hmoves.cycles, h.running hrun, ofNat_add_assoc]
      congr 2
      omega

theorem Balanced.next {s t : Emulator δ F} {l : Ledger} {input : Input δ F} (h : Balanced s l)
    (hmoves : Moves s input t) : Balanced t (l.next s input t) := by
  have hrunStart := h.runStart_le
  have hlastRun := h.lastRun_le
  constructor
  · rw [hmoves.startCycles, hmoves.cycles, h.cycles, ofNat_add_assoc]
    rfl
  · rw [hmoves.startFrames, hmoves.frames, h.frames, ofNat_add_assoc]
    rfl
  · rw [hmoves.lastRun]
    by_cases hleaves : leaves s input t = true
    · have hrun : s.status = .run := by
        simp only [leaves, Bool.and_eq_true, decide_eq_true_eq] at hleaves
        exact hleaves.1
      rw [if_pos hleaves, h.since hmoves hrun, BitVec.add_comm, BitVec.add_sub_cancel]
      simp only [Ledger.next, if_pos hleaves]
    · rw [if_neg hleaves, h.lastRun]
      simp only [Ledger.next, if_neg hleaves]
  · intro hrun
    rw [hmoves.runStart]
    by_cases henters : enters s input t = true
    · rw [if_pos henters]
      simp [Ledger.next, henters]
    · have hran : s.status = .run := by
        by_contra hstill
        exact henters (by simp [enters, hrun, hstill])
      rw [if_neg henters, h.since hmoves hran]
      simp only [Ledger.next, if_neg henters]
  · simp only [Ledger.next]
    split <;> omega
  · simp only [Ledger.next]
    split <;> omega
  · have hle := h.executed_le
    simp only [Ledger.next]
    split <;> omega

/-! ## The statistics -/

theorem safeCounter_ok {value : BitVec 64} (h : value ≤ maxSafeInteger) :
    safeCounter value = .ok value := by
  rw [safeCounter, if_neg (BitVec.not_lt.mpr h)]

theorem ofNat_le_safe {n : Nat} (h : n < 2 ^ 53) : BitVec.ofNat 64 n ≤ maxSafeInteger := by
  rw [BitVec.le_def, BitVec.toNat_ofNat]
  have hmax : maxSafeInteger.toNat = 2 ^ 53 - 1 := rfl
  omega

theorem getHardwareStats_ok {s : Emulator δ F} {uptimeMs : BitVec 64}
    (hsession : s.sessionId ≤ maxSafeInteger) (huptime : uptimeMs ≤ maxSafeInteger)
    (hcycles : s.totalCycles - s.sessionStartCycles ≤ maxSafeInteger)
    (hlast : s.lastRunCycles ≤ maxSafeInteger)
    (hframes : s.totalFrames - s.sessionStartFrames ≤ maxSafeInteger) :
    s.getHardwareStats uptimeMs = .ok ⟨s.sessionId, uptimeMs, s.totalCycles - s.sessionStartCycles,
      s.lastRunCycles, s.totalFrames - s.sessionStartFrames⟩ := by
  rw [getHardwareStats, safeCounter_ok hsession, safeCounter_ok huptime, safeCounter_ok hcycles,
    safeCounter_ok hlast, safeCounter_ok hframes]
  rfl

theorem Balanced.stats {s : Emulator δ F} {l : Ledger} (h : Balanced s l) (hl : l.Reportable)
    {uptimeMs : BitVec 64} (huptime : uptimeMs ≤ maxSafeInteger)
    (hsession : s.sessionId ≤ maxSafeInteger) :
    s.getHardwareStats uptimeMs = .ok ⟨s.sessionId, uptimeMs, BitVec.ofNat 64 l.cycles,
      BitVec.ofNat 64 l.lastRun, BitVec.ofNat 64 l.frames⟩ := by
  have hcycles : s.totalCycles - s.sessionStartCycles = BitVec.ofNat 64 l.cycles := by
    rw [h.cycles, BitVec.add_comm, BitVec.add_sub_cancel]
  have hframes : s.totalFrames - s.sessionStartFrames = BitVec.ofNat 64 l.frames := by
    rw [h.frames, BitVec.add_comm, BitVec.add_sub_cancel]
  have hlast : l.lastRun < 2 ^ 53 :=
    Nat.lt_of_le_of_lt (h.lastRun_le.trans h.executed_le) hl.1
  rw [← hcycles, ← hframes, ← h.lastRun]
  apply getHardwareStats_ok hsession huptime
  · rw [hcycles]
    exact ofNat_le_safe hl.1
  · rw [h.lastRun]
    exact ofNat_le_safe hlast
  · rw [hframes]
    exact ofNat_le_safe hl.2

theorem safeCounter_bind {α : Type} {value : BitVec 64} {f : BitVec 64 → Except String α} {a : α}
    (h : (safeCounter value >>= f) = .ok a) : f value = .ok a := by
  rw [safeCounter] at h
  split at h
  · cases h
  · exact h

theorem stats_of_ok {s : Emulator δ F} {uptimeMs : BitVec 64} {stats : HardwareStats}
    (h : s.getHardwareStats uptimeMs = .ok stats) :
    stats.cpuCycles = s.totalCycles - s.sessionStartCycles ∧
      stats.frameNumber = s.totalFrames - s.sessionStartFrames := by
  have hchecked := safeCounter_bind (safeCounter_bind (safeCounter_bind
    (safeCounter_bind (safeCounter_bind h))))
  cases hchecked
  exact ⟨rfl, rfl⟩

theorem Balanced.stats_of_ok {s : Emulator δ F} {l : Ledger} (h : Balanced s l)
    {uptimeMs : BitVec 64} {stats : HardwareStats} (hstats : s.getHardwareStats uptimeMs = .ok stats) :
    stats.cpuCycles = BitVec.ofNat 64 l.cycles ∧ stats.frameNumber = BitVec.ofNat 64 l.frames := by
  obtain ⟨hcycles, hframes⟩ := Emulator.stats_of_ok hstats
  rw [hcycles, hframes, h.cycles, h.frames, BitVec.add_comm, BitVec.add_sub_cancel,
    BitVec.add_comm, BitVec.add_sub_cancel]
  exact ⟨rfl, rfl⟩

theorem ofNat_le_ofNat {m n : Nat} (hle : m ≤ n) (hn : n < 2 ^ 53) :
    BitVec.ofNat 64 m ≤ BitVec.ofNat 64 n := by
  rw [BitVec.le_def, BitVec.toNat_ofNat, BitVec.toNat_ofNat]
  omega

/-! ## Runs -/

section Session

variable [BEq F] [Zero F]

theorem stepCounted_fst {dev : Devices δ} {fuel : Nat} (s : Emulator δ F × Ledger)
    (input : Input δ F) (t : Emulator δ F × Ledger) (h : stepCounted dev fuel s input = some t) :
    s.1.step dev fuel input = some t.1 := by
  obtain ⟨u, hu, rfl⟩ := Option.map_eq_some_iff.mp h
  exact hu

theorem balanced_after {dev : Devices δ} {fuel : Nat} {s : Emulator δ F} {inputs : List (Input δ F)}
    (hsteady : Runs.Along (step dev fuel) Steady s.beginSession inputs) {n : Nat}
    {t : Emulator δ F × Ledger} (h : after dev fuel s inputs n = some t) : Balanced t.1 t.2 := by
  have hpairs : Runs.Along (stepCounted dev fuel) (fun p input => Steady p.1 input)
      (s.beginSession, Ledger.zero) inputs := Runs.Along.comap (f := Prod.fst) stepCounted_fst hsteady
  refine hpairs.invariant_take (fun p => Balanced p.1 p.2) ?_ (balanced_beginSession s) n h
  intro p input hbalanced hinput q hq
  obtain ⟨u, hu, rfl⟩ := Option.map_eq_some_iff.mp hq
  exact hbalanced.next (moves hinput hu)

theorem ledger_mono {dev : Devices δ} {fuel : Nat} {s t : Emulator δ F × Ledger}
    {inputs : List (Input δ F)} (h : Runs.exec (stepCounted dev fuel) s inputs = some t) :
    s.2.cycles ≤ t.2.cycles ∧ s.2.frames ≤ t.2.frames := by
  refine Runs.exec_relates (R := fun s t : Emulator δ F × Ledger =>
    s.2.cycles ≤ t.2.cycles ∧ s.2.frames ≤ t.2.frames) (fun _ => ⟨Nat.le_refl _, Nat.le_refl _⟩)
    (fun hst htu => ⟨hst.1.trans htu.1, hst.2.trans htu.2⟩) ?_ h
  intro p input q hq
  obtain ⟨u, -, rfl⟩ := Option.map_eq_some_iff.mp hq
  exact ⟨Nat.le_add_right _ _, Nat.le_add_right _ _⟩

/--
In a session whose play calls turn no counter back, and leave the clock of a running
machine, the statistics are answered while the totals can be reported, never decrease,
and give the length of the last run.
-/
theorem session_counters {dev : Devices δ} {fuel : Nat} {s : Emulator δ F}
    {inputs : List (Input δ F)}
    (hsteady : Runs.Along (step dev fuel) Steady s.beginSession inputs) :
    Counted dev fuel s inputs := by
  constructor
  · intro n t l hafter hl uptimeMs huptime hsession
    exact ⟨_, (balanced_after hsteady hafter).stats hl huptime hsession⟩
  · intro n n' t t' l l' hle hafter hafter' hl' uptimeMs uptimeMs' stats stats' hstats hstats'
    have hbefore := (balanced_after hsteady hafter).stats_of_ok hstats
    have hlater := (balanced_after hsteady hafter').stats_of_ok hstats'
    obtain ⟨p, rest, hp, hrest⟩ := Runs.exec_take_le hle hafter'
    have hsame : some p = some (t, l) := hp.symm.trans hafter
    cases hsame
    obtain ⟨hcycles, hframes⟩ := ledger_mono hrest
    rw [hbefore.1, hbefore.2, hlater.1, hlater.2]
    exact ⟨ofNat_le_ofNat hcycles hl'.1, ofNat_le_ofNat hframes hl'.2⟩
  · intro n t l hafter
    exact (balanced_after hsteady hafter).lastRun

end Session

def rewoundRecorder : Recorder :=
  ((((Recorder.new 4).reset (Recorder.machineAt 0 fun _ => 0)).update
    (Recorder.machineAt 1 fun _ => 0)).playReverse 2 (Recorder.machineAt 1 fun _ => 0)).1

def rewoundToFirst : Emulator Unit Int :=
  blank.setDebugger fun d => { d with recorder := rewoundRecorder }

/-- A witness: the emulator plays on to the second frame, is run and executes an instruction. -/
theorem session_counters_forward : Counted .silent 0 rewoundToFirst
    [.request (.recorderPlayForward 1), .request .run, .instruction noLua, .request .stop] := by
  apply session_counters
  refine ⟨⟨rfl, fun saved hsaved => ?_⟩, fun _ _ => ?_⟩
  · have htarget : (rewoundRecorder.forwardSlot 1).map
        (fun i => (rewoundRecorder.states i).saved) =
          some (Recorder.machineAt 1 fun _ => 0).snapshot := by decide +kernel
    cases htarget.symm.trans (Option.mem_def.mp hsaved)
    exact ⟨by decide, by decide, fun hrun => by cases hrun⟩
  · refine ⟨⟨rfl, by rintro m ⟨⟩⟩, fun _ _ => ?_⟩
    refine ⟨⟨rfl, by rintro m ⟨⟩⟩, fun _ _ => ?_⟩
    exact ⟨⟨rfl, by rintro m ⟨⟩⟩, fun _ _ => trivial⟩

def takenBack : List (Input Unit Int) :=
  [.request .recorderReset, .request (.executeInstr noLua), .request (.recorderPlayReverse 1)]

structure Reading where
  sessionId : BitVec 64
  cycles : BitVec 64
  frames : BitVec 64
  lastRun : BitVec 64
  savedCycles : BitVec 64
  savedFrames : BitVec 64
  deriving DecidableEq

def reading (s : Emulator Unit Int) : Reading where
  sessionId := s.sessionId
  cycles := s.totalCycles - s.sessionStartCycles
  frames := s.totalFrames - s.sessionStartFrames
  lastRun := s.lastRunCycles
  savedCycles := s.cycleOffset + s.debugger.recorder.state.saved.cpu.cc - s.sessionStartCycles
  savedFrames :=
    s.frameOffset + s.debugger.recorder.state.saved.display.frameNum - s.sessionStartFrames

theorem takenBack_executed : (after .silent 0 blank takenBack 2).map (fun p =>
    (reading p.1, p.1.debugger.recorder.lastRecord)) = some (⟨2, 4, 0, 0, 0, 0⟩, true) := by
  decide +kernel

theorem takenBack_counted : (after .silent 0 blank takenBack 2).map (fun p =>
    (p.1.debugger.recorder.state.saved.cpu.cc,
      p.1.debugger.recorder.state.saved.display.frameNum, p.2.cycles, p.2.frames)) =
      some (0, 0, 4, 0) := by
  decide +kernel

theorem cc_playReverse_one {s : Emulator δ F} (hedge : s.debugger.recorder.lastRecord = true) :
    (s.play (s.debugger.recorder.playReverse 1 s.hardware.machine)).hardware.cpu.cc =
      s.debugger.recorder.state.saved.cpu.cc := by
  change (s.debugger.recorder.playReverse 1 s.hardware.machine).2.cpu.cc = _
  rw [Recorder.playReverse_one _ _ hedge]
  rfl

theorem frameNum_playReverse_one {s : Emulator δ F}
    (hedge : s.debugger.recorder.lastRecord = true) :
    (s.play
        (s.debugger.recorder.playReverse 1 s.hardware.machine)).hardware.display.update.frameNum =
      s.debugger.recorder.state.saved.display.frameNum := by
  rw [frameNum_play, Recorder.playReverse_one _ _ hedge]
  rfl

/-- Playing one frame in reverse takes the cycles of an instruction back. -/
theorem playReverse_counts_back : ¬ Counted .silent 0 blank takenBack := by
  intro hcounted
  obtain ⟨⟨t, l⟩, ht, hreading⟩ := Option.map_eq_some_iff.mp takenBack_executed
  obtain ⟨hvalues, hedge⟩ := Prod.mk.inj hreading
  injection hvalues with hsession hcycles hframes hlast hsaved hsavedFrames
  have hledger := takenBack_counted
  rw [ht] at hledger
  obtain ⟨hsavedCc, hledger⟩ := Prod.mk.inj (Option.some.inj hledger)
  obtain ⟨hsavedFrameNum, hledger⟩ := Prod.mk.inj hledger
  obtain ⟨hl, hlframes⟩ := Prod.mk.inj hledger
  let s := t.setTraceLog .reset
  let u := s.play (s.debugger.recorder.playReverse 1 s.hardware.machine)
  have hu : after .silent 0 blank takenBack 3 =
      some (u, l.next t (.request (.recorderPlayReverse 1)) u) := by
    have hsteps : takenBack.take 3 = takenBack.take 2 ++ [.request (.recorderPlayReverse 1)] := rfl
    have hstart : Runs.exec (stepCounted .silent 0) (blank.beginSession, Ledger.zero)
        (takenBack.take 2) = some (t, l) := ht
    rw [after, hsteps, Runs.exec_append, hstart]
    rfl
  have hcc : u.hardware.cpu.cc = s.debugger.recorder.state.saved.cpu.cc :=
    cc_playReverse_one hedge
  have hframeNum : u.hardware.display.update.frameNum =
      s.debugger.recorder.state.saved.display.frameNum :=
    frameNum_playReverse_one hedge
  have hcyclesBack : u.totalCycles - u.sessionStartCycles = 0 := by
    change t.cycleOffset + u.hardware.cpu.cc - t.sessionStartCycles = 0
    rw [hcc]
    exact hsaved
  have hframesBack : u.totalFrames - u.sessionStartFrames = 0 := by
    change t.frameOffset + u.hardware.display.update.frameNum - t.sessionStartFrames = 0
    rw [hframeNum]
    exact hsavedFrames
  have huptime : (0 : BitVec 64) ≤ maxSafeInteger := by decide
  have hstats := getHardwareStats_ok (s := t) (le_of_eq_of_le hsession (by decide)) huptime
    (le_of_eq_of_le hcycles (by decide)) (le_of_eq_of_le hlast (by decide))
    (le_of_eq_of_le hframes (by decide))
  have hback := getHardwareStats_ok (s := u) (le_of_eq_of_le hsession (by decide)) huptime
    (le_of_eq_of_le hcyclesBack (by decide)) (le_of_eq_of_le hlast (by decide))
    (le_of_eq_of_le hframesBack (by decide))
  have hzero : (0 : BitVec 64).toNat = 0 := rfl
  have hreportable : (l.next t (.request (.recorderPlayReverse 1)) u).Reportable := by
    constructor
    · change l.cycles + (u.hardware.cpu.cc.toNat - t.hardware.cpu.cc.toNat) < 2 ^ 53
      rw [hcc, show s.debugger.recorder.state.saved.cpu.cc = 0 from hsavedCc,
        show l.cycles = 4 from hl, hzero]
      omega
    · change l.frames + (u.hardware.display.update.frameNum.toNat -
        t.hardware.display.update.frameNum.toNat) < 2 ^ 53
      rw [hframeNum, show s.debugger.recorder.state.saved.display.frameNum = 0 from hsavedFrameNum,
        show l.frames = 0 from hlframes, hzero]
      omega
  have hle := (hcounted.monotone 2 3 t u l _ (by decide) ht hu hreportable 0 0 _ _ hstats hback).1
  change t.totalCycles - t.sessionStartCycles ≤ u.totalCycles - u.sessionStartCycles at hle
  rw [hcyclesBack] at hle
  exact absurd (le_of_eq_of_le hcycles.symm hle) (by decide)

end Emulator

end V6Emul
