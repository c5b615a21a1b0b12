import V6Emul.Display.Beam
import V6Emul.Hardware.Model
import V6Emul.Recorder.Model

/-!
# Beam and processor in lockstep

A turn draws sixteen pixels and takes four clocks.  The clock counter, the frame
counter and the beam therefore always agree, in the hardware as in every state
that the recorder keeps and plays back.
-/

namespace V6Emul

/-! ## The clock -/

@[simp] theorem CpuState.cc_setReg (s : CpuState) (r : Reg) (v : Byte) :
    (s.setReg r v).cc = s.cc := by
  cases r <;> rfl

@[simp] theorem CpuState.cc_setPair (s : CpuState) (p : Pair) (v : RegPair) :
    (s.setPair p v).cc = s.cc := by
  cases p <;> rfl

namespace Sys

variable {σ : Type}

theorem cc_exec (ports : PortFuncs σ) (micro : Micro) (s : Sys σ) :
    (s.exec ports micro).cpu.cc = s.cpu.cc := by
  cases micro with
  | _ =>
      simp only [exec, movRegReg, loadRegPtr, movMemReg, mviRegData, mviMemData,
        lda, sta, stax, lxi, lhld, shld, sphl, xthl, push, popPSW, pop, dad, inr, inrMem, dcr,
        dcrMem, inx, dcx, jmp, pchl, ret, rst, addMem, subMem, amaMem, xraMem, oraMem, cmpMem,
        adi, sbi, ani, xri, ori, cpi, memOp, immOp, call, retCond, hlt, in_, out_, setReg, setPair]
      repeat' split
      all_goals first | rfl | exact CpuState.cc_setReg _ _ _ | exact CpuState.cc_setPair _ _ _

theorem cc_enter (irq : Bool) (s : Sys σ) : (s.enter irq).cpu.cc = s.cpu.cc := by
  unfold enter beginInstruction
  repeat' split
  all_goals rfl

theorem cc_executeMachineCycle (ports : PortFuncs σ) (irq : Bool) (s : Sys σ) :
    (s.executeMachineCycle ports irq).cpu.cc = s.cpu.cc + 4 := by
  rw [executeMachineCycle_eq, ← cc_enter irq s,
    ← cc_exec ports (decode (s.enter irq).cpu.ir) (s.enter irq)]
  rfl

end Sys

/-! ## What the recorder keeps -/

namespace Recorder

def KeepsAll (P : Snapshot → Prop) (r : Recorder) : Prop := ∀ i, P (r.states i).saved

section KeepsAll

variable {P : Snapshot → Prop} {r : Recorder} {m : Machine}

theorem KeepsAll.update_states (h : r.KeepsAll P) {i : Nat} {s : HwState} (hs : P s.saved)
    (j : Nat) : P (Function.update r.states i s j).saved := by
  by_cases hj : j = i
  · subst hj
    rwa [Function.update_self]
  · rw [Function.update_of_ne hj]
    exact h j

theorem KeepsAll.setState (h : r.KeepsAll P) (log : List Store) :
    (r.setState { r.state with log := log }).KeepsAll P :=
  fun j => h.update_states (s := { r.state with log := log }) (h r.stateIdx) j

theorem KeepsAll.cleanMemUpdates (h : r.KeepsAll P) : r.cleanMemUpdates.KeepsAll P :=
  fun j => h.setState [] j

theorem KeepsAll.storeMemoryDiff (h : r.KeepsAll P) : (r.storeMemoryDiff m).KeepsAll P :=
  h.setState _

theorem KeepsAll.storeState (h : r.KeepsAll P) (hm : P m.snapshot) : (r.storeState m).KeepsAll P :=
  fun j => h.update_states hm j

theorem KeepsAll.reset (h : r.KeepsAll P) (hm : P m.snapshot) : (r.reset m).KeepsAll P :=
  KeepsAll.storeState (fun i => h i) hm

theorem KeepsAll.update (h : r.KeepsAll P) (hm : P m.snapshot) : (r.update m).KeepsAll P := by
  have hclean : (if r.lastRecord then r else r.cleanMemUpdates).KeepsAll P := by
    split
    · exact h
    · exact h.cleanMemUpdates
  simp only [Recorder.update]
  generalize (if r.lastRecord then r else r.cleanMemUpdates) = r' at hclean
  repeat' split
  · exact fun i => hclean.storeState hm i
  · exact hclean
  · exact fun i => hclean.storeMemoryDiff.storeState hm i
  · exact hclean.storeMemoryDiff

theorem KeepsAll.playForwardLoop (h : r.KeepsAll P) (hm : P m.snapshot) (n : Nat) :
    (playForwardLoop n r m).1.KeepsAll P ∧ P (playForwardLoop n r m).2.snapshot := by
  induction n generalizing r m with
  | zero => exact ⟨h, hm⟩
  | succ n ih =>
      rw [Recorder.playForwardLoop]
      split
      · exact ⟨h, hm⟩
      · exact ih (fun i => h i) (h _)

theorem KeepsAll.playReverseLoop (h : r.KeepsAll P) (hm : P m.snapshot) (n : Nat) :
    (playReverseLoop n r m).1.KeepsAll P ∧ P (playReverseLoop n r m).2.snapshot := by
  induction n generalizing r m with
  | zero => exact ⟨h, hm⟩
  | succ n ih =>
      rw [Recorder.playReverseLoop]
      split
      · exact ⟨h, hm⟩
      · have hstates : (r.stepReverse m).1.states = r.states := by
          simp only [stepReverse]
          split <;> rfl
        have hkeeps : (r.stepReverse m).1.KeepsAll P := by
          intro i
          rw [hstates]
          exact h i
        exact ih hkeeps (hkeeps _)

end KeepsAll

end Recorder

/-! ## Runs with a recorder -/

/-- `turns` is a history variable: the machine cycles of the run so far. -/
structure Emulation (δ : Type) where
  hardware : Hardware δ
  recorder : Recorder
  turns : Nat

/-- Clock, frame number and beam agree on a number of turns, which is at most `turns`. -/
def Snapshot.Locked (turns : Nat) (s : Snapshot) : Prop :=
  ∃ k ≤ turns, s.cpu.cc = BitVec.ofNat 64 (4 * k) ∧
    s.display.frameNum = BitVec.ofNat 64 (16 * k / frameLen) ∧
    s.display.framebufferIdx = BitVec.ofNat 32 (16 * k % frameLen)

theorem Snapshot.Locked.mono {turns turns' : Nat} (hle : turns ≤ turns') {s : Snapshot}
    (h : s.Locked turns) : s.Locked turns' := by
  obtain ⟨k, hk, hlocked⟩ := h
  exact ⟨k, hk.trans hle, hlocked⟩

namespace Hardware

variable {δ : Type}

/-- What the hardware hands to the debugger and its recorder. -/
def machine (h : Hardware δ) : Machine := ⟨h.cpu, h.mem, h.io.state, h.display.update⟩

def setMachine (h : Hardware δ) (m : Machine) : Hardware δ :=
  { h with
    cpu := m.cpu
    mem := m.mem
    io := h.io.setState m.io
    display := { h.display with update := m.display } }

/-- `BuffUpdate(FRAME_BUFFER)` -/
def redraw (h : Hardware δ) : Hardware δ := h.setRaster h.raster.frameBuffUpdate

/-- `4 * k` clocks have passed and `16 * k` pixels are drawn. -/
structure InStep (k : Nat) (h : Hardware δ) : Prop where
  clock : h.cpu.cc = BitVec.ofNat 64 (4 * k)
  beam : h.display.Beam (16 * k)

/-- The pixels drawn so far, as the counters have them. -/
def drawn (h : Hardware δ) : BitVec 64 :=
  h.display.update.frameNum * BitVec.ofNat 64 frameLen + BitVec.ofInt 64 h.display.idx

theorem drawn_of_beam {t : Nat} {h : Hardware δ} (hbeam : h.display.Beam t) :
    h.drawn = BitVec.ofNat 64 t := by
  have hsplit : t / frameLen * frameLen + t % frameLen = t := Nat.div_add_mod' t frameLen
  rw [drawn, hbeam.frameNum, hbeam.idx, BitVec.ofInt_natCast, ← BitVec.ofNat_mul,
    ← BitVec.ofNat_add, hsplit]

theorem inStep_machineCycle (dev : Devices δ) {k : Nat} {h : Hardware δ} (hs : h.InStep k) :
    (h.machineCycle dev).InStep (k + 1) := by
  constructor
  · have hcc := Sys.cc_executeMachineCycle (Io.ports dev) (h.rasterize dev).display.update.irq
      { (h.rasterize dev).toSys with io := (h.rasterize dev).io.log .cycle }
    have hclock : (h.machineCycle dev).cpu.cc = h.cpu.cc + 4 := hcc
    rw [hclock, hs.clock, Nat.mul_succ, BitVec.ofNat_add]
    rfl
  · exact Raster.rasterize_beam dev (r := h.raster) hs.beam

theorem inStep_of_locked {turns : Nat} {h : Hardware δ} (hlocked : h.machine.snapshot.Locked turns)
    (hsound : h.display.fault = false) : ∃ k ≤ turns, h.InStep k := by
  obtain ⟨k, hk, hcc, hframe, hidx⟩ := hlocked
  refine ⟨k, hk, hcc, hframe, ?_, hsound⟩
  have hplace : (h.display.setIdx (16 * k % frameLen : Nat)).idx = (16 * k % frameLen : Nat) :=
    Display.idx_setIdx _ (Nat.le_of_lt (Nat.mod_lt _ (by decide)))
  rw [← hplace]
  exact congrArg BitVec.toInt (hidx.trans (BitVec.ofInt_natCast 32 _).symm)

theorem InStep.locked {k turns : Nat} (hk : k ≤ turns) {h : Hardware δ} (hs : h.InStep k) :
    h.machine.snapshot.Locked turns := by
  refine ⟨k, hk, hs.clock, hs.beam.frameNum, ?_⟩
  have hidx : BitVec.ofInt 32 h.display.idx = h.display.update.framebufferIdx :=
    BitVec.ofInt_toInt
  rw [hs.beam.idx, BitVec.ofInt_natCast] at hidx
  exact hidx.symm

end Hardware

namespace Emulation

variable {δ : Type}

def play (s : Emulation δ) (result : Recorder × Machine) : Emulation δ :=
  { s with hardware := (s.hardware.setMachine result.2).redraw, recorder := result.1 }

inductive Next (dev : Devices δ) (s : Emulation δ) : Emulation δ → Prop where
  | machineCycle : Next dev s
      { s with hardware := s.hardware.machineCycle dev, turns := s.turns + 1 }
  | setMem (mem : Memory) : Next dev s { s with hardware := s.hardware.setMem mem }
  | handle (req : Hardware.HostReq δ) : Next dev s { s with hardware := s.hardware.handle req }
  | reset : Next dev s { s with hardware := s.hardware.reset dev }
  | restart : Next dev s { s with hardware := s.hardware.restart dev }
  | record : Next dev s { s with recorder := s.recorder.update s.hardware.machine }
  | resetRecorder : Next dev s { s with recorder := s.recorder.reset s.hardware.machine }
  | playForward (frames : Int) :
      Next dev s (s.play (s.recorder.playForward frames s.hardware.machine))
  | playReverse (frames : Int) :
      Next dev s (s.play (s.recorder.playReverse frames s.hardware.machine))

structure Start (dev : Devices δ) (s : Emulation δ) : Prop where
  reset : ∃ h : Hardware δ, h.display.fault = false ∧
    (s.hardware = h.reset dev ∨ s.hardware = h.restart dev)
  recorder : ∃ recordFrames, s.recorder = .new recordFrames

def Reachable (dev : Devices δ) : Emulation δ → Prop := Runs.Reachable (Start dev) (Next dev)

structure Locked (s : Emulation δ) : Prop where
  hardware : s.hardware.machine.snapshot.Locked s.turns
  sound : s.hardware.display.fault = false
  recorder : s.recorder.KeepsAll (Snapshot.Locked s.turns)

theorem snapshot_locked_zero (turns : Nat) {s : Snapshot} (hcc : s.cpu.cc = 0)
    (hframe : s.display.frameNum = 0) (hidx : s.display.framebufferIdx = 0) : s.Locked turns :=
  ⟨0, Nat.zero_le turns, hcc, hframe, hidx⟩

theorem Start.locked {dev : Devices δ} {s : Emulation δ} (hstart : s.Start dev) : s.Locked := by
  obtain ⟨⟨h, hsound, hreset⟩, recordFrames, hnew⟩ := hstart
  have hblank : s.recorder.KeepsAll (Snapshot.Locked s.turns) := by
    rw [hnew]
    exact fun _ => snapshot_locked_zero _ rfl rfl rfl
  rcases hreset with heq | heq
  · constructor
    · rw [heq]
      exact snapshot_locked_zero _ rfl rfl rfl
    · rw [heq]
      exact hsound
    · exact hblank
  · constructor
    · rw [heq]
      exact snapshot_locked_zero _ rfl rfl rfl
    · rw [heq]
      exact hsound
    · exact hblank

theorem Locked.play {s : Emulation δ} (hs : s.Locked) {result : Recorder × Machine}
    (hkeeps : result.1.KeepsAll (Snapshot.Locked s.turns))
    (hplayed : result.2.snapshot.Locked s.turns) : (s.play result).Locked := by
  have hset : ∃ k ≤ s.turns, (s.hardware.setMachine result.2).InStep k :=
    Hardware.inStep_of_locked hplayed hs.sound
  obtain ⟨k, hk, hstep⟩ := hset
  have hbeam := Raster.frameBuffUpdate_beam (r := (s.hardware.setMachine result.2).raster)
    hstep.beam
  have hredrawn : (s.hardware.setMachine result.2).redraw.InStep k := ⟨hstep.clock, hbeam⟩
  exact ⟨hredrawn.locked hk, hbeam.sound, hkeeps⟩

theorem Locked.next {dev : Devices δ} {s t : Emulation δ} (hs : s.Locked) (hnext : Next dev s t) :
    t.Locked := by
  cases hnext with
  | machineCycle =>
      obtain ⟨k, hk, hstep⟩ := Hardware.inStep_of_locked hs.hardware hs.sound
      have hturn := Hardware.inStep_machineCycle dev hstep
      exact ⟨hturn.locked (Nat.succ_le_succ hk), hturn.beam.sound,
        fun i => (hs.recorder i).mono (Nat.le_succ _)⟩
  | setMem mem => exact ⟨hs.hardware, hs.sound, hs.recorder⟩
  | handle req => cases req <;> exact ⟨hs.hardware, hs.sound, hs.recorder⟩
  | reset => exact ⟨snapshot_locked_zero _ rfl rfl rfl, hs.sound, hs.recorder⟩
  | restart => exact ⟨snapshot_locked_zero _ rfl rfl rfl, hs.sound, hs.recorder⟩
  | record => exact ⟨hs.hardware, hs.sound, hs.recorder.update hs.hardware⟩
  | resetRecorder => exact ⟨hs.hardware, hs.sound, hs.recorder.reset hs.hardware⟩
  | playForward frames =>
      obtain ⟨hkeeps, hplayed⟩ := hs.recorder.playForwardLoop hs.hardware frames.toNat
      exact hs.play hkeeps hplayed
  | playReverse frames =>
      obtain ⟨hkeeps, hplayed⟩ := hs.recorder.playReverseLoop hs.hardware frames.toNat
      exact hs.play hkeeps hplayed

theorem Reachable.locked {dev : Devices δ} {s : Emulation δ} (h : s.Reachable dev) : s.Locked :=
  @Runs.Reachable.invariant _ (Start dev) (Next dev) Locked (fun _ => Start.locked)
    (fun _ _ => Locked.next) s h

/--
After every machine cycle of a run four pixels are drawn for every clock, a slice is
sixteen pixels, and all accesses of the rasteriser are in bounds.
-/
theorem Reachable.lockstep {dev : Devices δ} {s : Emulation δ} (h : s.Reachable dev) :
    (4 * s.hardware.cpu.cc = s.hardware.drawn ∧
      (4 * s.turns < 2 ^ 62 → 4 * (s.hardware.cpu.cc.toNat : Int) =
        s.hardware.display.update.frameNum.toNat * frameLen + s.hardware.display.idx)) ∧
    (0 ≤ s.hardware.display.idx ∧ s.hardware.display.idx < frameLen) ∧
    (s.hardware.rasterize dev).drawn = s.hardware.drawn + 16 ∧
    (s.hardware.display.fault = false ∧ (s.hardware.rasterize dev).display.fault = false) ∧
    ∀ line pixel, ∀ a ∈ screenAddrs (s.hardware.display.screenAddrOffset line pixel),
      a < memoryGlobalLen := by
  obtain ⟨k, hk, hstep⟩ := Hardware.inStep_of_locked h.locked.hardware h.locked.sound
  have hbeam := hstep.beam
  have hslice := Raster.rasterize_beam dev (r := s.hardware.raster) hbeam
  refine ⟨⟨?_, ?_⟩, ⟨?_, ?_⟩, ?_, ⟨hbeam.sound, hslice.sound⟩, ?_⟩
  · have hsixteen : 4 * (4 * k) = 16 * k := by omega
    rw [Hardware.drawn_of_beam hbeam, hstep.clock]
    change BitVec.ofNat 64 4 * _ = _
    rw [← BitVec.ofNat_mul, hsixteen]
  · intro hturns
    have hcc : s.hardware.cpu.cc.toNat = 4 * k := by
      rw [hstep.clock, BitVec.toNat_ofNat]
      omega
    have hframe : s.hardware.display.update.frameNum.toNat = 16 * k / frameLen := by
      have hsmall : 16 * k / frameLen < 2 ^ 64 :=
        Nat.lt_of_le_of_lt (Nat.div_le_self _ _) (by omega)
      rw [hbeam.frameNum, BitVec.toNat_ofNat, Nat.mod_eq_of_lt hsmall]
    have hsplit := Nat.div_add_mod (16 * k) frameLen
    rw [hcc, hframe, hbeam.idx]
    rw [Nat.mul_comm] at hsplit
    omega
  · rw [hbeam.idx]
    exact Int.natCast_nonneg _
  · rw [hbeam.idx]
    exact Int.ofNat_lt.mpr (Nat.mod_lt _ (by decide))
  · rw [Hardware.drawn_of_beam hbeam, Hardware.drawn_of_beam (h := s.hardware.rasterize dev) hslice,
      BitVec.ofNat_add]
    rfl
  · intro line pixel
    exact Raster.screenAddrs_inside _

def restarted : Emulation Unit :=
  ⟨(Hardware.ofRam (fun _ => 0xC5) ()).restart .silent, .new 10, 0⟩

def cycle (s : Emulation Unit) : Emulation Unit :=
  { s with hardware := s.hardware.machineCycle .silent, turns := s.turns + 1 }

def resetRecorder (s : Emulation Unit) : Emulation Unit :=
  { s with recorder := s.recorder.reset s.hardware.machine }

def playReverse (s : Emulation Unit) : Emulation Unit :=
  s.play (s.recorder.playReverse 1 s.hardware.machine)

theorem reachable_rewound :
    restarted.cycle.cycle.resetRecorder.cycle.cycle.playReverse.Reachable .silent := by
  have hstart : restarted.Reachable .silent :=
    .start ⟨⟨.ofRam (fun _ => 0xC5) (), rfl, .inr rfl⟩, 10, rfl⟩
  have hreset : restarted.cycle.cycle.resetRecorder.Reachable .silent :=
    ((hstart.step .machineCycle).step .machineCycle).step .resetRecorder
  exact ((hreset.step .machineCycle).step .machineCycle).step (.playReverse 1)

/-- A witness: of four cycles the last two are rewound. -/
theorem lockstep_rewound :
    let s := restarted.cycle.cycle.resetRecorder.cycle.cycle
    s.hardware.cpu.cc = 16 ∧ s.playReverse.hardware.cpu.cc = 8 ∧
      4 * s.playReverse.hardware.cpu.cc = s.playReverse.hardware.drawn :=
  ⟨by decide +kernel, by decide +kernel, (Reachable.lockstep reachable_rewound).1.1⟩

end Emulation

end V6Emul
