import V6Emul.Hardware.Instruction

/-!
# The mapping registers across an instruction

The processor does not touch the mapping registers; an instruction changes them
when it is an `OUT` to one of their ports.  Their count of enabled mappings is read
by nothing but `IsException`.
-/

namespace V6Emul

variable {δ : Type}

/-! ## The mapping registers and their count -/

namespace Memory

def registers (m : Memory) : (Fin ramDiskMax → Mapping) × Nat := (m.mappings, m.mappingsEnabled)

def withRegisters (registers : (Fin ramDiskMax → Mapping) × Nat) (m : Memory) : Memory :=
  { m with mappings := registers.1, mappingsEnabled := registers.2 }

def withCount (count : Nat) (m : Memory) : Memory := m.withRegisters (m.mappings, count)

theorem registers_setRamDiskModeLoop {m m' : Memory} (h : m.registers = m'.registers)
    (disks : List (Fin ramDiskMax)) :
    (m.setRamDiskModeLoop disks).registers = (m'.setRamDiskModeLoop disks).registers := by
  induction disks generalizing m m' with
  | nil => exact h
  | cons disk rest ih =>
      have hmappings : m.mappings = m'.mappings := congrArg Prod.fst h
      have hcount : m.mappingsEnabled = m'.mappingsEnabled := congrArg Prod.snd h
      simp only [setRamDiskModeLoop, setRamDiskModeStep, hmappings, hcount]
      by_cases henabled : (m'.mappings disk).enabled = true
      · by_cases hsecond : m'.mappingsEnabled + 1 > 1
        · simp [henabled, hsecond, registers]
        · simp only [henabled, hsecond, if_true, if_false]
          exact ih rfl
      · simp only [henabled]
        exact ih h

theorem exists_enabled_of_count {m : Memory} (hzero : m.mappingsEnabled = 0)
    {disks : List (Fin ramDiskMax)} (h : 0 < (m.setRamDiskModeLoop disks).mappingsEnabled) :
    ∃ disk, (m.mappings disk).enabled = true := by
  induction disks with
  | nil =>
      rw [setRamDiskModeLoop, hzero] at h
      exact absurd h (Nat.lt_irrefl 0)
  | cons disk rest ih =>
      by_cases henabled : (m.mappings disk).enabled = true
      · exact ⟨disk, henabled⟩
      · simp only [setRamDiskModeLoop, setRamDiskModeStep, henabled] at h
        exact ih h

end Memory

namespace Sys

variable {σ : Type}

def withRegisters (registers : (Fin ramDiskMax → Mapping) × Nat) (s : Sys σ) : Sys σ :=
  { s with mem := s.mem.withRegisters registers }

theorem exec_withRegisters (ports : PortFuncs σ) (micro : Micro)
    (registers : (Fin ramDiskMax → Mapping) × Nat) (s : Sys σ) :
    (s.withRegisters registers).exec ports micro = (s.exec ports micro).withRegisters registers := by
  have hmc : (s.withRegisters registers).cpu.mc.toNat = s.cpu.mc.toNat := rfl
  cases micro with
  | _ =>
      simp only [exec, movRegReg, loadRegPtr, movMemReg, mviRegData, mviMemData,
        lda, sta, stax, lxi, lhld, shld, sphl, xthl, push, popPSW, pop, dad, inr, inrMem, dcr,
        dcrMem, inx, dcx, jmp, pchl, ret, rst, addMem, subMem, amaMem, xraMem, oraMem, cmpMem,
        adi, sbi, ani, xri, ori, cpi, memOp, immOp, call, retCond, hlt, in_, out_, hmc]
      try generalize s.cpu.mc.toNat = k
      try rcases k with _ | _ | _ | _ | _ | _ | k
      all_goals first
        | rfl
        | (repeat' split
           all_goals first | rfl | contradiction)

theorem enter_withRegisters (irq : Bool) (registers : (Fin ramDiskMax → Mapping) × Nat)
    (s : Sys σ) : (s.withRegisters registers).enter irq = (s.enter irq).withRegisters registers := by
  have hmc : (s.withRegisters registers).cpu.mc = s.cpu.mc := rfl
  unfold enter beginInstruction
  rw [hmc]
  by_cases hzero : s.cpu.mc = 0
  · rw [if_pos hzero, if_pos hzero]
    have hlatch : ((s.withRegisters registers).latchIrq irq).cpu = (s.latchIrq irq).cpu := rfl
    rw [hlatch]
    split <;> rfl
  · rw [if_neg hzero, if_neg hzero]
    rfl

theorem executeMachineCycle_withRegisters (ports : PortFuncs σ) (irq : Bool)
    (registers : (Fin ramDiskMax → Mapping) × Nat) (s : Sys σ) :
    (s.withRegisters registers).executeMachineCycle ports irq =
      (s.executeMachineCycle ports irq).withRegisters registers := by
  rw [executeMachineCycle_eq, executeMachineCycle_eq, enter_withRegisters]
  have hexec := exec_withRegisters ports (decode (s.enter irq).cpu.ir) registers (s.enter irq)
  have hcycle := congrArg (fun t => (stepMC (mCycles (s.enter irq).cpu.ir) t).addCC) hexec
  exact hcycle

theorem registers_executeMachineCycle (ports : PortFuncs σ) (irq : Bool) (s : Sys σ) :
    (s.executeMachineCycle ports irq).mem.registers = s.mem.registers := by
  have hsame := executeMachineCycle_withRegisters ports irq s.mem.registers s
  have hregisters := congrArg (fun t : Sys σ => t.mem.registers) hsame
  exact hregisters

end Sys

/-! ## Runs that agree but for the count -/

def Bus.withCount (count : Nat) (b : Bus δ) : Bus δ := { b with mem := b.mem.withCount count }

namespace Bus

theorem portOutHandling_withCount (dev : Devices δ) (port value : Byte) (count : Nat) (b : Bus δ) :
    ∃ count', (b.withCount count).portOutHandling dev port value =
      (b.portOutHandling dev port value).withCount count' := by
  unfold portOutHandling
  generalize port.toNat = number
  split
  all_goals first | exact ⟨count, rfl⟩ | exact ⟨(b.mem.setRamDiskMode _ value).mappingsEnabled, rfl⟩

theorem portOutCommit_withCount (dev : Devices δ) (count : Nat) (b : Bus δ) :
    ∃ count', (b.withCount count).portOutCommit dev = (b.portOutCommit dev).withCount count' :=
  portOutHandling_withCount dev b.io.state.outport b.io.state.outbyte count
    { b with io := b.io.log (.commit b.io.state.outport b.io.state.outbyte) }

theorem setIoState_withCount (f : IoState → IoState) (count : Nat) (b : Bus δ) :
    (b.withCount count).setIoState f = (b.setIoState f).withCount count := rfl

theorem countOut_withCount (dev : Devices δ) (count : Nat) (b : Bus δ) :
    ∃ count', (b.withCount count).countOut dev = (b.countOut dev).withCount count' := by
  have hstate : (b.withCount count).io.state = b.io.state := rfl
  simp only [countOut, hstate, setIoState_withCount]
  split
  · split
    · exact portOutCommit_withCount dev count _
    · exact ⟨count, rfl⟩
  · exact ⟨count, rfl⟩

theorem bisimulation_count (dev : Devices δ) :
    Bisimulation dev fun b b' => ∃ count, b' = b.withCount count := by
  constructor
  · rintro b b' ⟨count, rfl⟩
    rfl
  · rintro b b' ⟨count, rfl⟩
    rfl
  · rintro b b' ⟨count, rfl⟩ event
    exact ⟨count, rfl⟩
  · rintro b b' ⟨count, rfl⟩ colorIdx
    obtain ⟨count', hcount⟩ := countOut_withCount dev count b
    refine ⟨count', ?_⟩
    simp only [tryToCommit, hcount]
    rfl

end Bus

theorem Bus.registers_memAfterOut (port value : Byte) {m m' : Memory}
    (h : m.registers = m'.registers) :
    (memAfterOut port value m).registers = (memAfterOut port value m').registers := by
  have hmappings : m.mappings = m'.mappings := congrArg Prod.fst h
  unfold memAfterOut
  split
  · apply Memory.registers_setRamDiskModeLoop
    simp [Memory.registers, hmappings]
  · exact h

namespace Hardware

def withCount (count : Nat) (h : Hardware δ) : Hardware δ := h.setMem (h.mem.withCount count)

theorem rasterize_withCount (dev : Devices δ) (count : Nat) (h : Hardware δ) :
    ∃ count', (h.withCount count).rasterize dev = (h.rasterize dev).withCount count' := by
  have halike : Raster.Alike (fun b b' => ∃ count, b' = Bus.withCount count b) h.raster
      (h.withCount count).raster := ⟨⟨count, rfl⟩, rfl⟩
  obtain ⟨⟨count', hbus⟩, hdisplay⟩ := halike.rasterize (Bus.bisimulation_count dev)
  refine ⟨count', ?_⟩
  have hmem := congrArg Bus.mem hbus
  have hio := congrArg Bus.io hbus
  simp only [rasterize, setRaster, hmem, hio, ← hdisplay]
  rfl

theorem executeMachineCycle_withCount (dev : Devices δ) (count : Nat) (h : Hardware δ) :
    (h.withCount count).executeMachineCycle dev = (h.executeMachineCycle dev).withCount count := by
  have hcycle := Sys.executeMachineCycle_withRegisters (Io.ports dev) h.display.update.irq
    (h.mem.mappings, count) { h.toSys with io := h.io.log .cycle }
  have hkept := congrArg Prod.fst (Sys.registers_executeMachineCycle (Io.ports dev)
    h.display.update.irq { h.toSys with io := h.io.log .cycle })
  have hmappings : (h.executeMachineCycle dev).mem.mappings = h.mem.mappings := hkept
  rw [withCount, withCount, Memory.withCount, Memory.withCount, hmappings]
  exact congrArg (fun s : Sys (Io δ) => { h with toSys := s }) hcycle

theorem machineCycle_withCount (dev : Devices δ) (count : Nat) (h : Hardware δ) :
    ∃ count', (h.withCount count).machineCycle dev = (h.machineCycle dev).withCount count' := by
  obtain ⟨count', hdrawn⟩ := rasterize_withCount dev count h
  refine ⟨count', ?_⟩
  rw [machineCycle, hdrawn, executeMachineCycle_withCount]
  rfl

theorem runCycles_withCount (dev : Devices δ) (fuel count : Nat) (h : Hardware δ) :
    ∃ count', runCycles dev fuel (h.withCount count) =
      (runCycles dev fuel h).map (withCount count') := by
  induction fuel generalizing count h with
  | zero => exact ⟨count, rfl⟩
  | succ fuel ih =>
      obtain ⟨count', hturn⟩ := machineCycle_withCount dev count h
      have hdone : ((h.machineCycle dev).withCount count').isInstructionExecuted =
          (h.machineCycle dev).isInstructionExecuted := rfl
      simp only [runCycles, hturn, hdone]
      split
      · exact ⟨count', rfl⟩
      · exact ih count' (h.machineCycle dev)

theorem executeCycles_withCount (dev : Devices δ) (count : Nat) (h : Hardware δ) :
    ∃ count', (h.withCount count).executeCycles dev = (h.executeCycles dev).map (withCount count') :=
  runCycles_withCount dev cyclesMax count (h.setMem h.mem.debugInit)

/-! ## The registers behind an instruction -/

def nextOut (dev : Devices δ) (h : Hardware δ) : Option (Byte × Byte) :=
  if h.toSys.nextOpcode (h.irqLine dev) = opcodeOut then
    some (h.mem.getByte (h.cpu.pc.word + 1#16) .ram, h.cpu.a)
  else none

def memAfterNext (dev : Devices δ) (h : Hardware δ) : Memory :=
  match h.nextOut dev with
  | some (port, value) => Bus.memAfterOut port value h.mem
  | none => h.mem

theorem nextOpcode_drawnSys (dev : Devices δ) {h : Hardware δ} (hslot : h.io.Settled) (irq : Bool) :
    (h.drawnSys dev).nextOpcode irq = h.toSys.nextOpcode irq := by
  have hopcode : (h.drawnSys dev).opcode = h.toSys.opcode :=
    congrArg (fun m : Memory => m.getByte h.cpu.pc.word .ram) (mem_drawnSys dev hslot)
  have hcpu : (h.drawnSys dev).cpu = h.cpu := rfl
  simp only [Sys.nextOpcode, hopcode, hcpu]
  rfl

theorem ir_machineCycle (dev : Devices δ) {h : Hardware δ} (hslot : h.io.Settled) :
    (h.machineCycle dev).cpu.ir = h.toSys.nextOpcode (h.irqLine dev) := by
  have hentered := Sys.ir_enter (h.irqLine dev) (h.drawnSys dev)
  rw [nextOpcode_drawnSys dev hslot] at hentered
  have hcycle := Sys.executeMachineCycle_eq (Io.ports dev) (h.irqLine dev) (h.drawnSys dev)
  have hir := congrArg (fun s : Sys (Io δ) => s.cpu.ir) hcycle
  exact hir.trans ((Sys.ir_cycle _ _ _ _).trans hentered)

theorem registers_machineCycle (dev : Devices δ) {h : Hardware δ} (hslot : h.io.Settled) :
    (h.machineCycle dev).mem.registers = h.mem.registers := by
  have hcycle := Sys.registers_executeMachineCycle (Io.ports dev) (h.irqLine dev) (h.drawnSys dev)
  rw [mem_machineCycle, turned, hcycle, mem_drawnSys dev hslot]

theorem registers_of_no_out {dev : Devices δ} {h t : Hardware δ} (hparked : h.Parked)
    (hno : h.toSys.nextOpcode (h.irqLine dev) ≠ opcodeOut) (hrun : h.executeCycles dev = some t) :
    t.mem.registers = h.mem.registers := by
  refine runCycles_rule (P := fun s => s.toSys.Turning ∧ s.mem.registers = h.mem.registers ∧
    s.toSys.nextOpcode (s.irqLine dev) ≠ opcodeOut)
    (Q := fun s => s.mem.registers = h.mem.registers) ?_ ?_ hrun
  · rintro s ⟨hturn, hregisters, hnext⟩
    have hslot := hturn.settled_of_next hnext
    have hkept := (registers_machineCycle dev hslot).trans hregisters
    split
    · exact hkept
    · rename_i hdone
      refine ⟨turning_machineCycle dev hturn, hkept, ?_⟩
      rw [Sys.nextOpcode, if_pos (Sys.mc_ne_of_not_executed hdone), ir_machineCycle dev hslot]
      exact hnext
  · refine ⟨⟨⟨hparked.turning.sequenced.inCycle, hparked.turning.sequenced.pending,
      hparked.turning.sequenced.halted⟩, .inl hparked.slot⟩, rfl, ?_⟩
    have hirq : (h.setMem h.mem.debugInit).irqLine dev = h.irqLine dev := irqLine_setMem dev h rfl
    rw [hirq]
    exact hno

structure OutReads (port value : Byte) (registers : (Fin ramDiskMax → Mapping) × Nat)
    (h : Hardware δ) : Prop where
  turning : h.toSys.Turning
  slot : h.io.Settled
  ir : h.cpu.ir = opcodeOut
  mc : h.cpu.mc = 1
  port : h.mem.getByte h.cpu.pc.word .ram = port
  value : h.cpu.a = value
  registers : h.mem.registers = registers

structure OutWaits (port value : Byte) (registers : (Fin ramDiskMax → Mapping) × Nat)
    (h : Hardware δ) : Prop where
  turning : h.toSys.Turning
  timer : h.io.state.outCommitTimer = 1
  port : h.io.state.outport = port
  value : h.io.state.outbyte = value
  ir : h.cpu.ir = opcodeOut
  mc : h.cpu.mc = 2
  registers : h.mem.registers = registers

theorem not_executed {s : Sys (Io δ)} (hseq : s.Sequenced) (hir : s.cpu.ir = opcodeOut)
    (hmc : s.cpu.mc ≠ 0) : s.isInstructionExecuted = false := by
  have hhlta : s.cpu.hlta = false := by
    rw [Bool.eq_false_iff]
    intro hhalt
    rw [(hseq.halted hhalt).1] at hir
    exact absurd hir (by decide)
  rw [Sys.isInstructionExecuted, hhlta, Bool.or_false]
  exact beq_false_of_ne hmc

theorem cycle_out_idle (dev : Devices δ) {s : Sys (Io δ)} (hmc : s.cpu.mc ≠ 1) :
    s.cycle (Io.ports dev) (decode opcodeOut) (mCycles opcodeOut) = (s.stepMC 3).addCC := by
  have hne := Sys.mc_toNat_ne hmc
  have hexec : s.out_ (Io.ports dev) = s := by
    unfold Sys.out_
    split
    · contradiction
    · rfl
  have hdecode : decode opcodeOut = .out_ := rfl
  have hcycles : mCycles opcodeOut = 3 := rfl
  rw [hdecode, hcycles, Sys.cycle, Sys.exec, hexec]

theorem turned_eq (dev : Devices δ) (h : Hardware δ) {op : Byte}
    (hop : ((h.drawnSys dev).enter (h.irqLine dev)).cpu.ir = op) :
    h.turned dev =
      ((h.drawnSys dev).enter (h.irqLine dev)).cycle (Io.ports dev) (decode op) (mCycles op) := by
  rw [turned, Sys.executeMachineCycle_eq, hop]

theorem outReads_machineCycle (dev : Devices δ) {h : Hardware δ} (hturn : h.toSys.Turning)
    (hslot : h.io.Settled) (hmc : h.cpu.mc = 0)
    (hnext : h.toSys.nextOpcode (h.irqLine dev) = opcodeOut) :
    (h.machineCycle dev).OutReads (h.mem.getByte (h.cpu.pc.word + 1#16) .ram) h.cpu.a
      h.mem.registers := by
  have hno : ¬ h.toSys.Accepts (h.irqLine dev) := by
    intro hacc
    rw [Sys.nextOpcode, if_neg (not_not_intro hmc), if_pos hacc] at hnext
    exact absurd hnext (by decide)
  have hfetch : (h.drawnSys dev).enter (h.irqLine dev) =
      ((h.drawnSys dev).latchIrq (h.irqLine dev)).fetchOpcode :=
    Sys.enter_of_fetch (s := h.drawnSys dev) hmc
      (Sys.not_interrupted_of_fetches (s := h.toSys) ⟨hmc, hno, rfl⟩)
  have hop : ((h.drawnSys dev).enter (h.irqLine dev)).cpu.ir = opcodeOut := by
    rw [Sys.ir_enter, nextOpcode_drawnSys dev hslot, hnext]
  have hentered : ((h.drawnSys dev).enter (h.irqLine dev)).cpu.mc = 0 := by
    rw [hfetch]
    exact hmc
  have hturned := turned_eq dev h hop
  rw [cycle_out_idle dev (by rw [hentered]; decide), hfetch] at hturned
  have hcpu := congrArg Sys.cpu hturned
  have hmem := congrArg Sys.mem hturned
  have hdrawn := mem_drawnSys dev hslot
  constructor
  · exact turning_machineCycle dev hturn
  · exact (congrArg (fun s : Sys (Io δ) => s.io.state.outCommitTimer) hturned).trans
      (settled_drawnSys dev hslot.armed)
  · exact (ir_machineCycle dev hslot).trans hnext
  · have hstep := congrArg CpuState.mc hcpu
    change _ = BitVec.ofNat 4 ((h.cpu.mc + 1).toNat % 3) at hstep
    rw [hmc] at hstep
    exact hstep
  · have hpc := congrArg CpuState.pc hcpu
    rw [cpu_machineCycle, mem_machineCycle, hpc, hmem]
    change (h.drawnSys dev).mem.getByte (RegPair.ofWord (h.cpu.pc.word + 1#16)).word .ram = _
    rw [RegPair.word_ofWord, hdrawn]
  · have hvalue := congrArg CpuState.a hcpu
    exact hvalue
  · exact registers_machineCycle dev hslot

theorem OutReads.outWaits {dev : Devices δ} {port value : Byte}
    {registers : (Fin ramDiskMax → Mapping) × Nat} {h : Hardware δ}
    (hs : h.OutReads port value registers) : (h.machineCycle dev).OutWaits port value registers := by
  have hmc : (h.drawnSys dev).cpu.mc ≠ 0 := by
    change h.cpu.mc ≠ 0
    rw [hs.mc]
    decide
  have hlatched := Sys.enter_of_mc_ne (h.irqLine dev) hmc
  have hop : ((h.drawnSys dev).enter (h.irqLine dev)).cpu.ir = opcodeOut := by
    rw [hlatched]
    exact hs.ir
  have hentered : ((h.drawnSys dev).enter (h.irqLine dev)).cpu.mc = 1 := by
    rw [hlatched]
    exact hs.mc
  have hturned := turned_eq dev h hop
  have hio : (h.turned dev).io = (h.drawnSys dev).io.portOut port value := by
    have hdecode : decode opcodeOut = .out_ := rfl
    have hslot := Sys.exec_out_slot dev hentered
    rw [hlatched] at hslot hturned
    rw [hturned, hdecode]
    refine hslot.trans ?_
    rw [← hs.port, ← hs.value, ← mem_drawnSys dev hs.slot]
    rfl
  have hnext : (h.machineCycle dev).cpu.mc = BitVec.ofNat 4 ((h.cpu.mc + 1).toNat % 3) := by
    have hstep := congrArg (fun s : Sys (Io δ) => s.cpu.mc) hturned
    refine hstep.trans ?_
    rw [Sys.mc_cycle_eq, hlatched]
    rfl
  constructor
  · exact turning_machineCycle dev hs.turning
  · exact congrArg (fun io : Io δ => io.state.outCommitTimer) hio
  · exact congrArg (fun io : Io δ => io.state.outport) hio
  · exact congrArg (fun io : Io δ => io.state.outbyte) hio
  · refine (ir_machineCycle dev hs.slot).trans ((if_pos ?_).trans hs.ir)
    exact hmc
  · rw [hnext, hs.mc]
    rfl
  · exact (registers_machineCycle dev hs.slot).trans hs.registers

theorem OutWaits.executed {dev : Devices δ} {port value : Byte} {h : Hardware δ} {m : Memory}
    (hs : h.OutWaits port value m.registers) :
    (h.machineCycle dev).isInstructionExecuted = true ∧
      (h.machineCycle dev).mem.registers = (Bus.memAfterOut port value m).registers := by
  have hmc : (h.drawnSys dev).cpu.mc ≠ 0 := by
    change h.cpu.mc ≠ 0
    rw [hs.mc]
    decide
  have hlatched := Sys.enter_of_mc_ne (h.irqLine dev) hmc
  have hop : ((h.drawnSys dev).enter (h.irqLine dev)).cpu.ir = opcodeOut := by
    rw [hlatched]
    exact hs.ir
  have hentered : ((h.drawnSys dev).enter (h.irqLine dev)).cpu.mc ≠ 1 := by
    rw [hlatched]
    change h.cpu.mc ≠ 1
    rw [hs.mc]
    decide
  have hturned := turned_eq dev h hop
  rw [cycle_out_idle dev hentered, hlatched] at hturned
  constructor
  · have hlast := congrArg (fun s : Sys (Io δ) => s.cpu.mc) hturned
    change (h.machineCycle dev).cpu.mc = BitVec.ofNat 4 ((h.cpu.mc + 1).toNat % 3) at hlast
    rw [hs.mc] at hlast
    simp [Sys.isInstructionExecuted, hlast]
  · have hmem := Raster.mem_rasterize dev (r := h.raster) (.inr hs.timer)
    have hdue : h.raster.toBus.dueMem = Bus.memAfterOut port value h.mem := by
      rw [Bus.dueMem, ← hs.port, ← hs.value]
      exact if_neg (by rw [show h.raster.toBus.io.state.outCommitTimer = 1 from hs.timer]; decide)
    have hkept := Sys.registers_executeMachineCycle (Io.ports dev) (h.irqLine dev) (h.drawnSys dev)
    have hdrawn : (h.drawnSys dev).mem = Bus.memAfterOut port value h.mem := hmem.trans hdue
    rw [mem_machineCycle, turned, hkept, hdrawn]
    exact Bus.registers_memAfterOut port value hs.registers

theorem registers_of_out {dev : Devices δ} {h t : Hardware δ} (hparked : h.Parked)
    (hnext : h.toSys.nextOpcode (h.irqLine dev) = opcodeOut) (hrun : h.executeCycles dev = some t) :
    t.mem.registers = (Bus.memAfterOut (h.mem.getByte (h.cpu.pc.word + 1#16) .ram) h.cpu.a
      h.mem).registers := by
  have hmc : h.cpu.mc = 0 := by
    rcases hparked.cpu.startable false with ⟨hzero, -⟩ | ⟨hone, hhlt, -⟩
    · exact hzero
    · rw [Sys.nextOpcode, if_pos (by rw [hone]; decide), hhlt] at hnext
      exact absurd hnext (by decide)
  have hirq : (h.setMem h.mem.debugInit).irqLine dev = h.irqLine dev := irqLine_setMem dev h rfl
  have hturn : (h.setMem h.mem.debugInit).toSys.Turning :=
    ⟨⟨hparked.turning.sequenced.inCycle, hparked.turning.sequenced.pending,
      hparked.turning.sequenced.halted⟩, .inl hparked.slot⟩
  have hnext' : (h.setMem h.mem.debugInit).toSys.nextOpcode
      ((h.setMem h.mem.debugInit).irqLine dev) = opcodeOut := by
    rw [hirq]
    exact hnext
  have hreads := outReads_machineCycle dev hturn hparked.slot hmc hnext'
  have hwaits : ((((h.setMem h.mem.debugInit)).machineCycle dev).machineCycle dev).OutWaits
      (h.mem.getByte (h.cpu.pc.word + 1#16) .ram) h.cpu.a h.mem.registers := hreads.outWaits
  obtain ⟨hdone, hregisters⟩ := @OutWaits.executed _ dev _ _ _ _ hwaits
  have hfirst := not_executed hreads.turning.sequenced hreads.ir (by rw [hreads.mc]; decide)
  have hsecond := not_executed hwaits.turning.sequenced hwaits.ir (by rw [hwaits.mc]; decide)
  have hturns : h.executeCycles dev =
      some (((h.setMem h.mem.debugInit).machineCycle dev |>.machineCycle dev).machineCycle dev) := by
    rw [executeCycles, cyclesMax, runCycles_succ, if_neg (by rw [hfirst]; decide), runCycles_succ,
      if_neg (by rw [hsecond]; decide), runCycles_succ, if_pos hdone]
  rw [hturns] at hrun
  rw [← Option.some.inj hrun]
  exact hregisters

end Hardware

end V6Emul
