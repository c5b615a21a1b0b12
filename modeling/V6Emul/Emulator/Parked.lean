import V6Emul.Display.Border
import V6Emul.Emulator.StopRecord
import V6Emul.Hardware.Headless

/-!
# Between two instructions

The execution thread finds the processor between two instructions and leaves it there,
and so does the recorder with the states that it keeps.  Only a recording that is loaded
can hold another state.
-/

namespace V6Emul

/-! ## Saved states -/

/-- A saved state between two instructions, with no `OUT` in the slot. -/
def Snapshot.Parked (s : Snapshot) : Prop :=
  Sys.Parked (⟨s.cpu, .ofRam fun _ => 0, (), []⟩ : Sys Unit) ∧ s.io.outCommitTimer = 0

namespace Hardware

variable {δ : Type}

theorem parked_iff_snapshot (h : Hardware δ) : h.Parked ↔ h.machine.snapshot.Parked := by
  constructor
  · rintro ⟨⟨⟨hin, hpending, hhalted⟩, hexecuted⟩, hslot⟩
    exact ⟨⟨⟨hin, hpending, hhalted⟩, hexecuted⟩, hslot⟩
  · rintro ⟨⟨⟨hin, hpending, hhalted⟩, hexecuted⟩, hslot⟩
    exact ⟨⟨⟨hin, hpending, hhalted⟩, hexecuted⟩, hslot⟩

theorem settled_bisimulation (dev : Devices δ) :
    Raster.Bisimulation dev fun r r' : Raster δ => r = r' ∧ r.io.Settled := by
  constructor
  · rintro r r' ⟨rfl, -⟩
    exact ⟨rfl, rfl, rfl, rfl, rfl, rfl, rfl, rfl, rfl, rfl⟩
  · rintro r r' ⟨rfl, h⟩
    exact ⟨rfl, h⟩
  · rintro r r' ⟨rfl, h⟩ color
    exact ⟨rfl, h⟩
  · rintro r r' ⟨rfl, h⟩ colorIdx
    exact ⟨rfl, (Bus.tryToCommit_spec dev colorIdx h.armed).2⟩
  · rintro r r' ⟨rfl, h⟩
    exact ⟨rfl, h⟩
  · rintro r r' ⟨rfl, h⟩ portA
    exact ⟨rfl, h⟩

theorem io_setDisplay (f : Display → Display) (r : Raster δ) : (r.setDisplay f).io = r.io := rfl

theorem settled_frameBuffUpdate (dev : Devices δ) {r : Raster δ} (h : r.io.Settled) :
    r.frameBuffUpdate.io.Settled := by
  have hslices : ∀ n, ((r.setDisplay (Display.setIdx 0)).redrawSlices n).io.Settled :=
    Raster.Bisimulation.redrawSlices (Q := fun s => s.io.Settled) (settled_bisimulation dev) h
  rw [Raster.frameBuffUpdate, io_setDisplay]
  exact hslices _

theorem parked_setRaster {h : Hardware δ} (hparked : h.Parked) {r : Raster δ}
    (hslot : r.io.Settled) : (h.setRaster r).Parked :=
  hparked.of_cpu_io rfl (Eq.trans hslot (Eq.symm hparked.slot))

theorem parked_redraw (dev : Devices δ) {h : Hardware δ} (hparked : h.Parked) :
    h.redraw.Parked := by
  have hslot : h.raster.io.Settled := hparked.slot
  rw [redraw]
  exact parked_setRaster hparked (settled_frameBuffUpdate dev hslot)

end Hardware

namespace Emulator

variable {δ F : Type}

/-- The hardware is between two instructions, and so is every state that the recorder keeps. -/
structure Parked (s : Emulator δ F) : Prop where
  hardware : s.hardware.Parked
  recorder : s.debugger.recorder.KeepsAll Snapshot.Parked

def LoadsParked (s : Emulator δ F) : Input δ F → Prop
  | .request (.recorderDeserialize data) =>
      ∀ result, s.debugger.recorder.deserialize data s.hardware.machine = some result →
        result.1.KeepsAll Snapshot.Parked ∧ result.2.snapshot.Parked
  | _ => True

theorem parked_new {hardware : Hardware δ} (h : hardware.Parked) (recordFrames : Nat)
    (enabled : Bool) : Parked (F := F) (new hardware (.new recordFrames enabled)) := by
  refine ⟨h, fun _ => ⟨⟨⟨?_, fun _ => rfl, ?_⟩, rfl⟩, rfl⟩⟩
  · exact (by decide : 0 < mCycles 0)
  · intro hhalt
    exact absurd hhalt Bool.false_ne_true

section

variable {s t : Emulator δ F}

theorem Parked.congr (h : s.Parked) (hhardware : t.hardware = s.hardware)
    (hrecorder : t.debugger.recorder = s.debugger.recorder) : t.Parked := by
  refine ⟨?_, ?_⟩
  · rw [hhardware]
    exact h.hardware
  · rw [hrecorder]
    exact h.recorder

theorem Parked.setHardware (h : s.Parked) {f : Hardware δ → Hardware δ}
    (hf : (f s.hardware).Parked) : (s.setHardware f).Parked := ⟨hf, h.recorder⟩

theorem Parked.reset (h : s.Parked) (dev : Devices δ) : (s.reset dev).Parked :=
  ⟨Hardware.parked_reset dev s.hardware, h.recorder⟩

theorem Parked.restart (h : s.Parked) (dev : Devices δ) : (s.restart dev).Parked :=
  ⟨Hardware.parked_restart dev h.hardware, h.recorder⟩

theorem Parked.play (dev : Devices δ) {result : Recorder × Machine}
    (hkeeps : result.1.KeepsAll Snapshot.Parked) (hplayed : result.2.snapshot.Parked) :
    (s.play result).Parked := by
  have hset : (s.hardware.setMachine result.2).Parked :=
    (Hardware.parked_iff_snapshot _).mpr hplayed
  exact ⟨Hardware.parked_redraw dev hset, hkeeps⟩

theorem Parked.resetRecorder (h : s.Parked) : s.resetRecorder.Parked :=
  ⟨h.hardware, h.recorder.reset ((Hardware.parked_iff_snapshot _).mp h.hardware)⟩

/-! ## Instructions -/

theorem Parked.checkException (h : s.Parked) : s.checkException.2.Parked := by
  refine ⟨?_, ?_⟩
  · have hchecked := Hardware.parked_checkMapping h.hardware
    rw [Emulator.checkException]
    split <;> exact hchecked
  · rw [checkException_debugger]
    exact h.recorder

theorem Parked.record (h : s.Parked) : s.record.Parked :=
  ⟨h.hardware.of_cpu_io rfl rfl,
    h.recorder.update ((Hardware.parked_iff_snapshot _).mp h.hardware)⟩

variable [BEq F] [Zero F]

theorem Parked.debug (h : s.Parked) (lua : LuaCheck F) : (s.debug lua).2.Parked := by
  have hchecked : (s.checkBreaks lua).2.Parked := ⟨h.hardware.of_cpu_io rfl rfl, h.recorder⟩
  cases hevent : (s.checkBreaks lua).1 with
  | none =>
      rw [debug_none hevent]
      exact Parked.record (hchecked.congr rfl rfl)
  | some e =>
      rw [debug_some hevent]
      exact Parked.record (hchecked.congr rfl rfl)

theorem Parked.hook (h : s.Parked) (lua : LuaCheck F) : (s.hook lua).2.Parked := by
  rw [Emulator.hook]
  split
  · exact h.debug lua
  · exact h

theorem Parked.executeInstruction (h : s.Parked) {dev : Devices δ} {lua : LuaCheck F}
    {broke : Bool} (hrun : s.executeInstruction dev lua = some (broke, t)) : t.Parked := by
  rw [Emulator.executeInstruction, Option.map_eq_some_iff] at hrun
  obtain ⟨hardware, hcycles, hrun⟩ := hrun
  have hexecuted : Parked { s with hardware := hardware } :=
    ⟨Hardware.parked_executeCycles h.hardware hcycles, h.recorder⟩
  have hhooked := hexecuted.hook lua
  dsimp only at hrun
  split at hrun
  · cases hrun
    exact hhooked
  · have hchecked := hhooked.checkException
    rw [hrun] at hchecked
    exact hchecked

theorem Parked.executeFrameLoop {dev : Devices δ} {lua : Nat → LuaCheck F} {frameNum : BitVec 64}
    {fuel : Nat} (h : s.Parked) (hrun : executeFrameLoop dev lua frameNum fuel s = some t) :
    t.Parked := by
  induction fuel generalizing s with
  | zero => contradiction
  | succ fuel ih =>
      rw [Emulator.executeFrameLoop] at hrun
      obtain ⟨⟨broke, u⟩, hu, hrun⟩ := Option.bind_eq_some_iff.mp hrun
      have hparked := h.executeInstruction hu
      split at hrun
      · exact ih hparked hrun
      · cases hrun
        exact hparked

end

section Requests

variable {s t : Emulator δ F}

theorem parked_runHeadlessLoop {dev : Devices δ} {limits : Hardware.HeadlessLimits}
    {startCC startFrame : BitVec 64} {fuel : Nat} {h u : Hardware δ} (hparked : h.Parked)
    (hrun : h.runHeadlessLoop dev limits startCC startFrame fuel = some u) : u.Parked := by
  induction fuel generalizing h with
  | zero => contradiction
  | succ fuel ih =>
      rw [Hardware.runHeadlessLoop] at hrun
      obtain ⟨v, hv, hrun⟩ := Option.bind_eq_some_iff.mp hrun
      have hnext := Hardware.parked_executeCycles hparked hv
      split at hrun
      · cases hrun
        exact hnext
      · exact ih hnext hrun

theorem Parked.loadRom (h : s.Parked) {dev : Devices δ} {data : List Byte} {addr : Addr}
    {autorun : Bool} (hload : s.loadRom dev data addr autorun = some t) : t.Parked := by
  unfold Emulator.loadRom at hload
  split at hload
  · cases hload
    have hloaded := (Parked.congr (t := s.stop) h rfl rfl).restart dev
    cases autorun with
    | false => exact ⟨hloaded.hardware.of_cpu_io rfl rfl, h.recorder⟩
    | true => exact ⟨hloaded.hardware.of_cpu_io rfl rfl, h.recorder⟩
  · contradiction

theorem Parked.editMemory (h : s.Parked) (op : MemoryEditOp) : (s.editMemory op).Parked := by
  unfold Emulator.editMemory
  cases op with
  | add input =>
      dsimp only
      split
      · exact h
      · exact ⟨h.hardware.of_cpu_io rfl rfl, h.recorder⟩
  | del globalAddr => exact h.congr rfl rfl
  | delAll => exact h.congr rfl rfl
  | restore globalAddr =>
      dsimp only
      split
      · exact h
      · exact ⟨h.hardware.of_cpu_io rfl rfl, h.recorder⟩

theorem Parked.scriptRunOnce [BEq F] [Zero F] (h : s.Parked) (scriptId : Id) (run : LuaRun F) :
    (s.scriptRunOnce scriptId run).Parked := by
  rw [Emulator.scriptRunOnce]
  rcases s.debugger.scripts.runOnce scriptId run with ⟨error | result, scripts⟩
  · exact h.congr rfl rfl
  · dsimp only
    split <;> exact h.congr rfl rfl

theorem Parked.deserialize (h : s.Parked) (dev : Devices δ) {data : List Byte}
    (hload : LoadsParked s (.request (.recorderDeserialize data)))
    (hrun : s.deserialize data = some t) : t.Parked := by
  obtain ⟨result, hresult, hrun⟩ := Option.map_eq_some_iff.mp hrun
  obtain ⟨hkeeps, hplayed⟩ := hload result hresult
  split at hrun
  · cases hrun
    exact Parked.play dev hkeeps hplayed
  · cases hrun
    exact ⟨h.hardware, hkeeps⟩

theorem Parked.step [BEq F] [Zero F] (h : s.Parked) {dev : Devices δ} {fuel : Nat}
    {input : Input δ F} (hload : LoadsParked s input) (hstep : s.step dev fuel input = some t) :
    t.Parked := by
  have hsaved := (Hardware.parked_iff_snapshot _).mp h.hardware
  cases input with
  | instruction lua =>
      rw [Emulator.step, executeRunning] at hstep
      split at hstep
      · obtain ⟨⟨broke, u⟩, hu, rfl⟩ := Option.map_eq_some_iff.mp hstep
        have hparked := h.executeInstruction hu
        cases broke
        · exact hparked
        · exact hparked.congr rfl rfl
      · contradiction
  | request req =>
      rw [Emulator.step] at hstep
      cases req with
      | executeInstr lua =>
          obtain ⟨⟨broke, u⟩, hu, rfl⟩ := Option.map_eq_some_iff.mp hstep
          have hparked := h.executeInstruction hu
          cases broke
          · exact hparked.congr rfl rfl
          · exact hparked
      | executeFrame lua =>
          obtain ⟨u, hu, rfl⟩ := Option.map_eq_some_iff.mp hstep
          exact (h.executeFrameLoop hu).congr rfl rfl
      | executeFrameNoBreaks lua =>
          obtain ⟨u, hu, rfl⟩ := Option.map_eq_some_iff.mp hstep
          exact (h.executeFrameLoop hu).congr rfl rfl
      | runHeadless limits =>
          obtain ⟨⟨result, hardware⟩, hrun, rfl⟩ := Option.map_eq_some_iff.mp hstep
          obtain ⟨u, hu, heq⟩ := Option.map_eq_some_iff.mp hrun
          cases heq
          exact ⟨parked_runHeadlessLoop h.hardware hu, h.recorder⟩
      | reset =>
          cases hstep
          exact h.reset dev
      | restart =>
          cases hstep
          exact h.restart dev
      | host req =>
          have hhandled := h.setHardware (f := fun x => x.handle req)
            (Hardware.parked_handle h.hardware req)
          cases req with
          | setIoPaletteEntry index hwColor =>
              rw [handle] at hstep
              cases hstep
              split
              · exact h
              · exact hhandled
          | _ =>
              cases hstep
              exact hhandled
      | keyHandling op devices =>
          have hset : (s.setDevices devices).Parked := ⟨h.hardware.of_cpu_io rfl rfl, h.recorder⟩
          cases op with
          | none =>
              cases hstep
              exact hset
          | reset =>
              cases hstep
              exact hset.reset dev
          | restart =>
              cases hstep
              exact hset.restart dev
      | loadRom data addr autorun => exact h.loadRom hstep
      | mountFdd devices autoBoot =>
          have hset : (s.setDevices devices).Parked := ⟨h.hardware.of_cpu_io rfl rfl, h.recorder⟩
          cases hstep
          cases autoBoot with
          | false => exact hset
          | true => exact (hset.reset dev).congr rfl rfl
      | debugReset resetRecorder =>
          have hreset : (s.setTraceLog .reset).Parked := h.congr rfl rfl
          cases hstep
          cases resetRecorder with
          | false => exact hreset
          | true => exact hreset.resetRecorder
      | recorderReset =>
          cases hstep
          exact h.resetRecorder
      | recorderPlayForward frames =>
          cases hstep
          obtain ⟨hkeeps, hplayed⟩ := h.recorder.playForwardLoop hsaved frames.toNat
          exact Parked.play dev hkeeps hplayed
      | recorderPlayReverse frames =>
          cases hstep
          obtain ⟨hkeeps, hplayed⟩ := h.recorder.playReverseLoop hsaved frames.toNat
          exact Parked.play dev hkeeps hplayed
      | recorderDeserialize data => exact h.deserialize dev hload hstep
      | memoryEdits op =>
          cases hstep
          exact h.editMemory op
      | scriptRunOnce scriptId run =>
          cases hstep
          exact h.scriptRunOnce scriptId run
      | traceLogFilter texts addressPattern instructionPattern =>
          rw [handle] at hstep
          split at hstep <;> cases hstep <;> exact h.congr rfl rfl
      | _ =>
          cases hstep
          exact h.congr rfl rfl

end Requests

end Emulator

end V6Emul
