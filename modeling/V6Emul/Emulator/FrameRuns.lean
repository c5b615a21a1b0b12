import V6Emul.Emulator.Protection
import V6Emul.Hardware.Budget

/-!
# Executing a frame

In every run of the emulator the clock and the beam agree, with whatever the recorder plays
back.  `EXECUTE_FRAME` therefore ends, and it ends in the next frame, less than one
instruction behind its start.
-/

namespace V6Emul

open Raster (slicesPerFrame)

variable {δ F : Type}

namespace Hardware

theorem InStep.congr {k : Nat} {h h' : Hardware δ} (hs : h.InStep k)
    (hclock : h'.cpu.cc = h.cpu.cc) (hupdate : h'.display.update = h.display.update)
    (hfault : h'.display.fault = h.display.fault) : h'.InStep k := by
  have hidx : h'.display.idx = h.display.idx := congrArg (fun u => u.framebufferIdx.toInt) hupdate
  refine ⟨hclock.trans hs.clock, ?_, hidx.trans hs.beam.idx, hfault.trans hs.beam.sound⟩
  rw [hupdate]
  exact hs.beam.frameNum

end Hardware

namespace Emulator

structure Locked (s : Emulator δ F) : Prop where
  hardware : ∃ k, s.hardware.InStep k
  recorder : s.debugger.recorder.KeepsAll fun saved => ∃ turns, saved.Locked turns

/-- A recording that is loaded holds states in which they agree. -/
def LoadsLocked (s : Emulator δ F) : Input δ F → Prop
  | .request (.recorderDeserialize data) =>
      ∀ result, s.debugger.recorder.deserialize data s.hardware.machine = some result →
        (result.1.KeepsAll fun saved => ∃ turns, saved.Locked turns) ∧
          ∃ turns, result.2.snapshot.Locked turns
  | _ => True

section

variable {dev : Devices δ} {s t : Emulator δ F}

theorem Locked.snapshot (h : s.Locked) : ∃ turns, s.hardware.machine.snapshot.Locked turns := by
  obtain ⟨k, hk⟩ := h.hardware
  exact ⟨k, hk.locked (Nat.le_refl k)⟩

theorem Locked.congr (h : s.Locked) (hclock : t.hardware.cpu.cc = s.hardware.cpu.cc)
    (hupdate : t.hardware.display.update = s.hardware.display.update)
    (hfault : t.hardware.display.fault = s.hardware.display.fault)
    (hrecorder : t.debugger.recorder = s.debugger.recorder) : t.Locked := by
  obtain ⟨k, hk⟩ := h.hardware
  refine ⟨⟨k, hk.congr hclock hupdate hfault⟩, ?_⟩
  rw [hrecorder]
  exact h.recorder

theorem Locked.cleared (h : s.Locked) (hclock : t.hardware.cpu.cc = 0)
    (hframe : t.hardware.display.update.frameNum = 0)
    (hidx : t.hardware.display.update.framebufferIdx = 0)
    (hfault : t.hardware.display.fault = s.hardware.display.fault)
    (hrecorder : t.debugger.recorder = s.debugger.recorder) : t.Locked := by
  obtain ⟨k, hk⟩ := h.hardware
  have hlocked := Emulation.snapshot_locked_zero 0 (s := t.hardware.machine.snapshot)
    hclock hframe hidx
  obtain ⟨k', -, hk'⟩ := Hardware.inStep_of_locked hlocked (hfault.trans hk.beam.sound)
  refine ⟨⟨k', hk'⟩, ?_⟩
  rw [hrecorder]
  exact h.recorder

theorem Locked.reset (h : s.Locked) (dev : Devices δ) : (s.reset dev).Locked :=
  h.cleared rfl rfl rfl rfl rfl

theorem Locked.restart (h : s.Locked) (dev : Devices δ) : (s.restart dev).Locked :=
  h.cleared rfl rfl rfl rfl rfl

theorem Locked.play (h : s.Locked) {result : Recorder × Machine}
    (hkeeps : result.1.KeepsAll fun saved => ∃ turns, saved.Locked turns)
    (hplayed : ∃ turns, result.2.snapshot.Locked turns) : (s.play result).Locked := by
  obtain ⟨k, hk⟩ := h.hardware
  obtain ⟨turns, hturns⟩ := hplayed
  obtain ⟨k', -, hset⟩ : ∃ k ≤ turns, (s.hardware.setMachine result.2).InStep k :=
    Hardware.inStep_of_locked hturns hk.beam.sound
  have hbeam := Raster.frameBuffUpdate_beam (r := (s.hardware.setMachine result.2).raster)
    hset.beam
  exact ⟨⟨k', hset.clock, hbeam⟩, hkeeps⟩

theorem Locked.resetRecorder (h : s.Locked) : s.resetRecorder.Locked :=
  ⟨h.hardware, h.recorder.reset h.snapshot⟩

theorem Locked.record (h : s.Locked) : s.record.Locked := by
  obtain ⟨k, hk⟩ := h.hardware
  exact ⟨⟨k, hk.congr rfl rfl rfl⟩, h.recorder.update h.snapshot⟩

theorem checkException_counters (s : Emulator δ F) :
    s.checkException.2.hardware.cpu = s.hardware.cpu ∧
      s.checkException.2.hardware.display = s.hardware.display := by
  by_cases hcollision : 1 < s.hardware.mem.mappingsEnabled
  · simp [checkException, Hardware.checkMapping, Memory.isException, hcollision, recordStop,
      Hardware.setMem]
  · simp [checkException, Hardware.checkMapping, Memory.isException, hcollision, Hardware.setMem]

variable [BEq F] [Zero F]

theorem Locked.hook (h : s.Locked) (lua : LuaCheck F) : (s.hook lua).2.Locked := by
  have hchecked : (s.checkBreaks lua).2.Locked := h.congr rfl rfl rfl rfl
  rw [Emulator.hook]
  split
  · cases hevent : (s.checkBreaks lua).1 with
    | none =>
        rw [debug_none hevent]
        exact Locked.record (hchecked.congr rfl rfl rfl rfl)
    | some event =>
        rw [debug_some hevent]
        exact Locked.record (hchecked.congr rfl rfl rfl rfl)
  · exact h

theorem hook_counters (lua : LuaCheck F) (s : Emulator δ F) :
    (s.hook lua).2.hardware.cpu = s.hardware.cpu ∧
      (s.hook lua).2.hardware.display.update = s.hardware.display.update ∧
      (s.hook lua).2.hardware.display.fault = s.hardware.display.fault := by
  rw [hook]
  split
  · cases hevent : (s.checkBreaks lua).1 with
    | none =>
        rw [debug_none hevent]
        exact ⟨rfl, rfl, rfl⟩
    | some event =>
        rw [debug_some hevent]
        exact ⟨rfl, rfl, rfl⟩
  · exact ⟨rfl, rfl, rfl⟩

theorem inStep_executeInstruction (dev : Devices δ) (lua : LuaCheck F) {k : Nat}
    (hs : s.hardware.InStep k) :
    ∃ broke t turns, s.executeInstruction dev lua = some (broke, t) ∧ 0 < turns ∧ turns ≤ 6 ∧
      t.hardware.InStep (k + turns) := by
  obtain ⟨u, hu⟩ := Option.isSome_iff_exists.mp (s.hardware.executeCycles_isSome dev)
  obtain ⟨hpos, hle⟩ := Hardware.instructionTurns_bounds dev s.hardware
  have hexecuted := Hardware.inStep_executeCycles hs hu
  obtain ⟨hcpu, hupdate, hfault⟩ := hook_counters lua { s with hardware := u }
  have hhooked := hexecuted.congr (congrArg CpuState.cc hcpu) hupdate hfault
  obtain ⟨hcpu', hdisplay'⟩ := checkException_counters (hook lua { s with hardware := u }).2
  have hchecked := hhooked.congr (congrArg CpuState.cc hcpu') (congrArg Display.update hdisplay')
    (congrArg Display.fault hdisplay')
  rw [executeInstruction, hu, Option.map_some]
  dsimp only
  split
  · exact ⟨_, _, _, rfl, hpos, hle, hhooked⟩
  · exact ⟨_, _, _, rfl, hpos, hle, hchecked⟩

theorem Locked.executeInstruction (h : s.Locked) {lua : LuaCheck F} {broke : Bool}
    (hrun : s.executeInstruction dev lua = some (broke, t)) : t.Locked := by
  obtain ⟨k, hk⟩ := h.hardware
  obtain ⟨broke', t', turns, hrun', -, -, ht⟩ := inStep_executeInstruction dev lua hk
  rw [hrun, Option.some_inj, Prod.mk.injEq] at hrun'
  rw [Emulator.executeInstruction, Option.map_eq_some_iff] at hrun
  obtain ⟨u, hu, hrun⟩ := hrun
  refine ⟨⟨k + turns, hrun'.2 ▸ ht⟩, ?_⟩
  have hexecuted : Locked { s with hardware := u } :=
    ⟨⟨_, Hardware.inStep_executeCycles hk hu⟩, h.recorder⟩
  have hkept := (hexecuted.hook lua).recorder
  have hchecked := checkException_debugger (Emulator.hook lua { s with hardware := u }).2
  dsimp only at hrun
  split at hrun
  · cases hrun
    exact hkept
  · rw [hrun] at hchecked
    rw [hchecked]
    exact hkept

theorem Locked.executeFrameLoop {lua : Nat → LuaCheck F} {frameNum : BitVec 64} {fuel : Nat}
    (h : s.Locked) (hrun : executeFrameLoop dev lua frameNum fuel s = some t) : t.Locked := by
  induction fuel generalizing s with
  | zero => contradiction
  | succ fuel ih =>
      rw [Emulator.executeFrameLoop] at hrun
      obtain ⟨⟨broke, u⟩, hu, hrun⟩ := Option.bind_eq_some_iff.mp hrun
      have hnext := h.executeInstruction hu
      split at hrun
      · exact ih hnext hrun
      · cases hrun
        exact hnext

end

/-! ## Every input -/

section Requests

variable {dev : Devices δ} {s t : Emulator δ F}

theorem inStep_runHeadlessLoop {limits : Hardware.HeadlessLimits} {startCC startFrame : BitVec 64}
    {fuel : Nat} {h u : Hardware δ} (hs : ∃ k, h.InStep k)
    (hrun : h.runHeadlessLoop dev limits startCC startFrame fuel = some u) : ∃ k, u.InStep k := by
  induction fuel generalizing h with
  | zero => contradiction
  | succ fuel ih =>
      rw [Hardware.runHeadlessLoop] at hrun
      obtain ⟨v, hv, hrun⟩ := Option.bind_eq_some_iff.mp hrun
      obtain ⟨k, hk⟩ := hs
      have hnext := Hardware.inStep_executeCycles hk hv
      split at hrun
      · cases hrun
        exact ⟨_, hnext⟩
      · exact ih ⟨_, hnext⟩ hrun

theorem Locked.loadRom (h : s.Locked) {data : List Byte} {addr : Addr} {autorun : Bool}
    (hload : s.loadRom dev data addr autorun = some t) : t.Locked := by
  unfold Emulator.loadRom at hload
  split at hload
  · cases hload
    have hloaded := (Locked.congr (t := s.stop) h rfl rfl rfl rfl).restart dev
    cases autorun <;> exact hloaded.congr rfl rfl rfl rfl
  · contradiction

theorem Locked.editMemory (h : s.Locked) (op : MemoryEditOp) : (s.editMemory op).Locked := by
  unfold Emulator.editMemory
  cases op with
  | add input =>
      dsimp only
      split
      · exact h
      · exact h.congr rfl rfl rfl rfl
  | del globalAddr => exact h.congr rfl rfl rfl rfl
  | delAll => exact h.congr rfl rfl rfl rfl
  | restore globalAddr =>
      dsimp only
      split
      · exact h
      · exact h.congr rfl rfl rfl rfl

theorem Locked.deserialize (h : s.Locked) {data : List Byte}
    (hload : LoadsLocked s (.request (.recorderDeserialize data)))
    (hrun : s.deserialize data = some t) : t.Locked := by
  obtain ⟨result, hresult, hrun⟩ := Option.map_eq_some_iff.mp hrun
  obtain ⟨hkeeps, hplayed⟩ := hload result hresult
  split at hrun
  · cases hrun
    exact h.play hkeeps hplayed
  · cases hrun
    exact ⟨h.hardware, hkeeps⟩

variable [BEq F] [Zero F]

theorem Locked.scriptRunOnce (h : s.Locked) (scriptId : Id) (run : LuaRun F) :
    (s.scriptRunOnce scriptId run).Locked := by
  rw [Emulator.scriptRunOnce]
  rcases s.debugger.scripts.runOnce scriptId run with ⟨error | result, scripts⟩
  · exact h.congr rfl rfl rfl rfl
  · dsimp only
    split <;> exact h.congr rfl rfl rfl rfl

theorem Locked.step (h : s.Locked) {fuel : Nat} {input : Input δ F} (hload : LoadsLocked s input)
    (hstep : s.step dev fuel input = some t) : t.Locked := by
  cases input with
  | instruction lua =>
      rw [Emulator.step, executeRunning] at hstep
      split at hstep
      · obtain ⟨⟨broke, u⟩, hu, rfl⟩ := Option.map_eq_some_iff.mp hstep
        have hnext := h.executeInstruction hu
        cases broke <;> exact hnext.congr rfl rfl rfl rfl
      · contradiction
  | request req =>
      rw [Emulator.step] at hstep
      cases req with
      | executeInstr lua =>
          obtain ⟨⟨broke, u⟩, hu, rfl⟩ := Option.map_eq_some_iff.mp hstep
          have hnext := h.executeInstruction hu
          cases broke <;> exact hnext.congr rfl rfl rfl rfl
      | executeFrame lua =>
          obtain ⟨u, hu, rfl⟩ := Option.map_eq_some_iff.mp hstep
          exact (h.executeFrameLoop hu).congr rfl rfl rfl rfl
      | executeFrameNoBreaks lua =>
          obtain ⟨u, hu, rfl⟩ := Option.map_eq_some_iff.mp hstep
          exact (h.executeFrameLoop hu).congr rfl rfl rfl rfl
      | runHeadless limits =>
          obtain ⟨⟨result, hardware⟩, hrun, rfl⟩ := Option.map_eq_some_iff.mp hstep
          obtain ⟨u, hu, heq⟩ := Option.map_eq_some_iff.mp hrun
          cases heq
          exact ⟨inStep_runHeadlessLoop h.hardware hu, h.recorder⟩
      | reset =>
          cases hstep
          exact h.reset dev
      | restart =>
          cases hstep
          exact h.restart dev
      | host req =>
          cases req with
          | setIoPaletteEntry index hwColor =>
              rw [handle] at hstep
              cases hstep
              split
              · exact h
              · exact h.congr rfl rfl rfl rfl
          | _ =>
              cases hstep
              exact h.congr rfl rfl rfl rfl
      | keyHandling op devices =>
          have hset : (s.setDevices devices).Locked := h.congr rfl rfl rfl rfl
          cases op with
          | none =>
              cases hstep
              exact hset
          | reset =>
              cases hstep
              exact hset.reset dev
          | restart =>
              cases hstep
              exact hset.restart dev
      | loadRom data addr autorun => exact h.loadRom hstep
      | mountFdd devices autoBoot =>
          have hset : (s.setDevices devices).Locked := h.congr rfl rfl rfl rfl
          cases hstep
          cases autoBoot with
          | false => exact hset
          | true => exact (hset.reset dev).congr rfl rfl rfl rfl
      | debugReset resetRecorder =>
          have hreset : (s.setTraceLog .reset).Locked := h.congr rfl rfl rfl rfl
          cases hstep
          cases resetRecorder with
          | false => exact hreset
          | true => exact hreset.resetRecorder
      | recorderReset =>
          cases hstep
          exact h.resetRecorder
      | recorderPlayForward frames =>
          cases hstep
          have hreset : (s.setTraceLog .reset).Locked := h.congr rfl rfl rfl rfl
          obtain ⟨hkeeps, hplayed⟩ := h.recorder.playForwardLoop h.snapshot frames.toNat
          exact hreset.play hkeeps hplayed
      | recorderPlayReverse frames =>
          cases hstep
          have hreset : (s.setTraceLog .reset).Locked := h.congr rfl rfl rfl rfl
          obtain ⟨hkeeps, hplayed⟩ := h.recorder.playReverseLoop h.snapshot frames.toNat
          exact hreset.play hkeeps hplayed
      | recorderDeserialize data => exact h.deserialize hload hstep
      | memoryEdits op =>
          cases hstep
          exact h.editMemory op
      | scriptRunOnce scriptId run =>
          cases hstep
          exact h.scriptRunOnce scriptId run
      | traceLogFilter texts addressPattern instructionPattern =>
          rw [handle] at hstep
          split at hstep <;> cases hstep <;> exact h.congr rfl rfl rfl rfl
      | _ =>
          cases hstep
          exact h.congr rfl rfl rfl rfl

/-! ## The end of a frame -/

structure NextFrame (s t : Emulator δ F) (instructions : Nat) : Prop where
  frame : t.hardware.display.update.frameNum = s.hardware.display.update.frameNum + 1
  beam : 0 ≤ t.hardware.display.idx ∧ t.hardware.display.idx < 96
  count : instructions ≤ slicesPerFrame

def turnsLeft (k : Nat) : Nat := slicesPerFrame - k % slicesPerFrame

theorem turnsLeft_lt {k turns : Nat} (hpos : 0 < turns)
    (hsame : (k + turns) / slicesPerFrame = k / slicesPerFrame) :
    turnsLeft (k + turns) < turnsLeft k := by
  simp only [turnsLeft, slicesPerFrame, frameLen, frameW, frameH, Nat.reduceMul,
    Nat.reduceDiv] at hsame ⊢
  omega

theorem next_quotient {k turns : Nat} (hle : turns ≤ 6)
    (hother : (k + turns) / slicesPerFrame ≠ k / slicesPerFrame) :
    (k + turns) / slicesPerFrame = k / slicesPerFrame + 1 ∧
      (k + turns) % slicesPerFrame < 6 := by
  simp only [slicesPerFrame, frameLen, frameW, frameH, Nat.reduceMul, Nat.reduceDiv] at hother ⊢
  omega

theorem frameNum_inStep {k : Nat} {h : Hardware δ} (hs : h.InStep k) :
    h.display.update.frameNum = BitVec.ofNat 64 (k / slicesPerFrame) := by
  have hframe : 16 * k / frameLen = k / slicesPerFrame := by
    simp only [frameLen, frameW, frameH, slicesPerFrame, Nat.reduceMul, Nat.reduceDiv]
    omega
  rw [hs.beam.frameNum, hframe]

theorem frameNum_eq_iff {k turns : Nat} {h u : Hardware δ} (hs : h.InStep k)
    (hu : u.InStep (k + turns)) (hle : turns ≤ 6) :
    u.display.update.frameNum = h.display.update.frameNum ↔
      (k + turns) / slicesPerFrame = k / slicesPerFrame := by
  rw [frameNum_inStep hu, frameNum_inStep hs]
  constructor
  · intro hframe
    by_contra hother
    rw [(next_quotient hle hother).1, BitVec.ofNat_add] at hframe
    simp at hframe
  · intro hsame
    rw [hsame]

theorem executeFrameLoop_ends (dev : Devices δ) (lua : Nat → LuaCheck F) {k : Nat}
    (hs : s.hardware.InStep k) {fuel : Nat} (hfuel : turnsLeft k ≤ fuel) :
    ∃ t k', executeFrameLoop dev lua s.hardware.display.update.frameNum fuel s = some t ∧
      t.hardware.InStep k' ∧ k' / slicesPerFrame = k / slicesPerFrame + 1 ∧
      k' % slicesPerFrame < 6 ∧
      (ranFrame dev lua s.hardware.display.update.frameNum fuel s).length ≤ turnsLeft k := by
  generalize hframe : s.hardware.display.update.frameNum = frameNum
  induction fuel generalizing s k with
  | zero =>
      have hleft : 0 < turnsLeft k := Nat.sub_pos_of_lt (Nat.mod_lt k (by decide))
      exact absurd hfuel (Nat.not_le.mpr hleft)
  | succ fuel ih =>
      obtain ⟨broke, u, turns, hrun, hpos, hle, hu⟩ :=
        inStep_executeInstruction dev (lua fuel) hs
      have hnext := frameNum_eq_iff hs hu hle
      rw [hframe] at hnext
      rw [executeFrameLoop, ranFrame, hrun, Option.bind_some, Option.elim_some]
      by_cases hsame : (k + turns) / slicesPerFrame = k / slicesPerFrame
      · have hfewer : turnsLeft (k + turns) + 1 ≤ turnsLeft k := turnsLeft_lt hpos hsame
        obtain ⟨t, k', ht, hstep, hquotient, hrest, hlength⟩ := ih hu
          (Nat.le_of_succ_le_succ (hfewer.trans hfuel)) (hnext.mpr hsame)
        rw [if_pos (hnext.mpr hsame), if_pos (hnext.mpr hsame)]
        refine ⟨t, k', ht, hstep, hsame ▸ hquotient, hrest, ?_⟩
        rw [List.length_cons]
        exact (Nat.succ_le_succ hlength).trans hfewer
      · obtain ⟨hquotient, hrest⟩ := next_quotient hle hsame
        have hother : u.hardware.display.update.frameNum ≠ frameNum := fun h => hsame (hnext.mp h)
        have hleft : 0 < turnsLeft k := Nat.sub_pos_of_lt (Nat.mod_lt k (by decide))
        rw [if_neg hother, if_neg hother]
        exact ⟨u, k + turns, rfl, hu, hquotient, hrest, hleft⟩

/--
In every run of the emulator `EXECUTE_FRAME` ends, under the debugger and whatever Lua
answers, and it ends in the next frame, less than one instruction behind its start.
-/
theorem executeFrame_ends {fuel : Nat} {hardware : Hardware δ} {recordFrames : Nat}
    {enabled : Bool} {inputs : List (Input δ F)} (hstart : hardware.InStep 0)
    (hloads : Runs.Along (step dev fuel) LoadsLocked
      (new hardware (.new recordFrames enabled)) inputs)
    (hrun : Runs.exec (step dev fuel) (new hardware (.new recordFrames enabled)) inputs = some s)
    (lua : Nat → LuaCheck F) {frameFuel : Nat} (hfuel : slicesPerFrame ≤ frameFuel) :
    ∃ t, s.executeFrameNoBreaks dev frameFuel lua = some t ∧
      NextFrame s t (ranFrame dev lua s.hardware.display.update.frameNum frameFuel s).length := by
  have hnew : Locked (F := F) (new hardware (.new recordFrames enabled)) :=
    ⟨⟨0, hstart⟩, fun _ => ⟨0, Emulation.snapshot_locked_zero 0 rfl rfl rfl⟩⟩
  have hlocked : s.Locked := by
    rw [← inputs.take_length] at hrun
    exact hloads.invariant_take Locked (fun _ _ hs hload _ ht => hs.step hload ht) hnew _ hrun
  obtain ⟨k, hk⟩ := hlocked.hardware
  have hleft : turnsLeft k ≤ slicesPerFrame := Nat.sub_le _ _
  obtain ⟨t, k', ht, hstep, hquotient, hrest, hlength⟩ :=
    executeFrameLoop_ends dev lua hk (hleft.trans hfuel)
  refine ⟨t, ht, ?_, ?_, hlength.trans hleft⟩
  · rw [frameNum_inStep hstep, frameNum_inStep hk, hquotient, BitVec.ofNat_add]
    rfl
  · rw [hstep.beam.idx]
    simp only [slicesPerFrame, frameLen, frameW, frameH, Nat.reduceMul, Nat.reduceDiv] at hrest ⊢
    omega

/-- A witness: a frame under the hook, behind the construction. -/
theorem executeFrame_ends_blank :
    ∃ t, executeFrameNoBreaks .silent slicesPerFrame (fun _ => noLua)
        { blank with debugAttached := true } = some t ∧
      t.hardware.display.update.frameNum = 1 := by
  have hstart : (Hardware.ofRam (fun _ => 0) () : Hardware Unit).InStep 0 :=
    ⟨rfl, rfl, rfl, rfl⟩
  have hloads : Runs.Along (step .silent 0) LoadsLocked blank
      [.request (.debugAttach true)] :=
    ⟨trivial, fun _ _ => trivial⟩
  obtain ⟨t, ht, hframe⟩ := executeFrame_ends hstart hloads rfl (fun _ => noLua)
    (Nat.le_refl slicesPerFrame)
  exact ⟨t, ht, hframe.frame⟩

end Requests

end Emulator

end V6Emul
