import V6Emul.Cpu.Boundary
import V6Emul.Hardware.PortService

/-!
# One instruction in the hardware

Every instruction ends, and it ends with the processor parked and no `OUT` in the
slot: `OUT` is executed in the second of its three cycles and committed ahead of
the third.
-/

namespace V6Emul

variable {δ : Type}

def opcodeOut : Byte := 0xD3#8

/-! ## One turn -/

namespace Sys

/-- What holds before every turn: an `OUT` waits in the slot in the last cycle of `OUT` only. -/
structure Turning (s : Sys (Io δ)) : Prop where
  sequenced : s.Sequenced
  slot : s.io.Settled ∨
    (s.io.state.outCommitTimer = 1 ∧ decode s.cpu.ir = .out_ ∧ s.cpu.mc = 2)

theorem Turning.armed {s : Sys (Io δ)} (h : s.Turning) : s.io.Armed := by
  rcases h.slot with hsettled | ⟨hpending, -⟩
  · exact .inl hsettled
  · exact .inr hpending

theorem decode_out (op : Byte) : decode op = .out_ ↔ op = opcodeOut := by
  revert op
  decide +kernel

theorem mCycles_out {op : Byte} (h : decode op = .out_) : mCycles op = 3 := by
  rw [(decode_out op).mp h]
  decide +kernel

theorem state_in_ (dev : Devices δ) (s : Sys (Io δ)) :
    (s.in_ (Io.ports dev)).io.state = s.io.state := by
  unfold in_
  split
  · rfl
  · exact Io.state_portInHandling dev _ s.io
  · rfl

theorem settled_out_ (dev : Devices δ) {s : Sys (Io δ)} (h : s.io.Settled) (hmc : s.cpu.mc ≠ 1) :
    (s.out_ (Io.ports dev)).io.Settled := by
  have hne := mc_toNat_ne hmc
  unfold out_
  split
  · contradiction
  · exact h

theorem settled_exec (dev : Devices δ) {micro : Micro} {s : Sys (Io δ)} (h : s.io.Settled)
    (hno : micro = .out_ → s.cpu.mc ≠ 1) : (s.exec (Io.ports dev) micro).io.Settled := by
  by_cases hout : micro = .out_
  · rw [hout]
    exact settled_out_ dev h (hno hout)
  · by_cases hin : micro = .in_
    · rw [hin]
      exact (congrArg IoState.outCommitTimer (state_in_ dev s)).trans h
    · rw [io_exec _ hin hout]
      exact h

theorem exec_out_slot (dev : Devices δ) {s : Sys (Io δ)} (hmc : s.cpu.mc = 1) :
    (s.exec (Io.ports dev) .out_).io =
      s.io.portOut (s.mem.getByte s.cpu.pc.word .ram) s.cpu.a := by
  simp only [exec, out_, hmc]
  rfl

theorem cycle_turning (dev : Devices δ) (irq : Bool) {s : Sys (Io δ)} (hseq : s.Sequenced)
    (h : s.io.Settled) : (s.executeMachineCycle (Io.ports dev) irq).Turning := by
  refine ⟨hseq.step _, ?_⟩
  rw [executeMachineCycle_eq]
  have hentered : (s.enter irq).io.Settled := by
    rw [Io.Settled, io_enter]
    exact h
  generalize s.enter irq = t at hentered
  by_cases hfill : decode t.cpu.ir = .out_ ∧ t.cpu.mc = 1
  · obtain ⟨hout, hmc⟩ := hfill
    refine .inr ⟨?_, ?_, ?_⟩
    · have hslot := exec_out_slot dev hmc
      rw [← hout] at hslot
      exact congrArg (fun io : Io δ => io.state.outCommitTimer) hslot
    · rw [ir_cycle, hout]
    · rw [mc_cycle_eq, mCycles_out hout, hout]
      exact congrArg (fun mc : BitVec 4 => BitVec.ofNat 4 ((mc + 1).toNat % 3)) hmc
  · left
    exact settled_exec dev hentered fun hout hmc => hfill ⟨hout, hmc⟩

theorem Turning.settled_of_next {s : Sys (Io δ)} (h : s.Turning) {irq : Bool}
    (hno : s.nextOpcode irq ≠ opcodeOut) : s.io.Settled := by
  rcases h.slot with hsettled | ⟨-, hout, hmc⟩
  · exact hsettled
  · refine absurd ?_ hno
    rw [nextOpcode, if_pos (by rw [hmc]; decide)]
    exact (decode_out _).mp hout

theorem Turning.settled {s : Sys (Io δ)} (h : s.Turning) (hdone : s.isInstructionExecuted = true) :
    s.io.Settled := by
  rcases h.slot with hsettled | ⟨-, hout, hmc⟩
  · exact hsettled
  · simp only [isInstructionExecuted, hmc, Bool.or_eq_true] at hdone
    have hhalt := hdone.resolve_left (by decide)
    rw [(h.sequenced.halted hhalt).1] at hout
    exact absurd hout (by decide)

end Sys

namespace Hardware

def irqLine (dev : Devices δ) (h : Hardware δ) : Bool := (h.rasterize dev).display.update.irq

def drawnSys (dev : Devices δ) (h : Hardware δ) : Sys (Io δ) :=
  { (h.rasterize dev).toSys with io := (h.rasterize dev).io.log .cycle }

def turned (dev : Devices δ) (h : Hardware δ) : Sys (Io δ) :=
  (h.drawnSys dev).executeMachineCycle (Io.ports dev) (h.irqLine dev)

theorem machineCycle_eq (dev : Devices δ) (h : Hardware δ) :
    h.machineCycle dev = { h.rasterize dev with toSys := h.turned dev }.clockAudio dev := rfl

theorem cpu_machineCycle (dev : Devices δ) (h : Hardware δ) :
    (h.machineCycle dev).cpu = (h.turned dev).cpu := rfl

theorem mem_machineCycle (dev : Devices δ) (h : Hardware δ) :
    (h.machineCycle dev).mem = (h.turned dev).mem := rfl

theorem inCycle_machineCycle (dev : Devices δ) (h : Hardware δ) :
    (h.machineCycle dev).toSys.InCycle := by
  have hturned : (h.turned dev).InCycle := Sys.inCycle_executeMachineCycle _ _ _
  rw [machineCycle_eq]
  generalize h.turned dev = s at hturned ⊢
  exact hturned

theorem turning_machineCycle (dev : Devices δ) {h : Hardware δ} (hturn : h.toSys.Turning) :
    (h.machineCycle dev).toSys.Turning := by
  have hsettled := (Raster.rasterize_events dev (r := h.raster) hturn.armed).2
  have hseq : (h.drawnSys dev).Sequenced :=
    ⟨hturn.sequenced.inCycle, hturn.sequenced.pending, hturn.sequenced.halted⟩
  have hnext : (h.turned dev).Turning := Sys.cycle_turning dev (h.irqLine dev) hseq hsettled
  rw [machineCycle_eq]
  generalize h.turned dev = s at hnext ⊢
  exact ⟨⟨hnext.sequenced.inCycle, hnext.sequenced.pending, hnext.sequenced.halted⟩, hnext.slot⟩

/-! ## The turns of an instruction -/

theorem runCycles_succ (dev : Devices δ) (fuel : Nat) (h : Hardware δ) :
    runCycles dev (fuel + 1) h =
      if (h.machineCycle dev).isInstructionExecuted then some (h.machineCycle dev)
      else runCycles dev fuel (h.machineCycle dev) := rfl

theorem runCycles_rule {dev : Devices δ} {P Q : Hardware δ → Prop}
    (hstep : ∀ s, P s →
      if (s.machineCycle dev).isInstructionExecuted then Q (s.machineCycle dev)
      else P (s.machineCycle dev))
    {fuel : Nat} {h t : Hardware δ} (hP : P h) (hrun : runCycles dev fuel h = some t) : Q t := by
  induction fuel generalizing h with
  | zero => cases hrun
  | succ fuel ih =>
      have hnext := hstep h hP
      rw [runCycles] at hrun
      by_cases hdone : (h.machineCycle dev).isInstructionExecuted = true
      · simp only [if_pos hdone] at hrun hnext
        cases hrun
        exact hnext
      · simp only [if_neg hdone] at hrun hnext
        exact ih hnext hrun

theorem runCycles_isSome (dev : Devices δ) {fuel : Nat} {h : Hardware δ}
    (hin : h.toSys.InCycle) (hmc : h.cpu.mc ≠ 0)
    (hfuel : mCycles h.cpu.ir ≤ h.cpu.mc.toNat + fuel) : (runCycles dev fuel h).isSome := by
  induction fuel generalizing h with
  | zero =>
      have hlt : h.cpu.mc.toNat < mCycles h.cpu.ir := hin
      omega
  | succ fuel ih =>
      rw [runCycles]
      by_cases hdone : (h.machineCycle dev).isInstructionExecuted = true
      · simp only [if_pos hdone]
        rfl
      · simp only [if_neg hdone]
        have hcycle : (h.machineCycle dev).cpu = (((h.drawnSys dev).latchIrq (h.irqLine dev)).cycle
            (Io.ports dev) (decode h.cpu.ir) (mCycles h.cpu.ir)).cpu := by
          have hentered := Sys.enter_of_mc_ne (s := h.drawnSys dev) (h.irqLine dev) hmc
          have hrun := Sys.executeMachineCycle_eq (Io.ports dev) (h.irqLine dev) (h.drawnSys dev)
          rw [hentered] at hrun
          have hcpu := congrArg Sys.cpu hrun
          exact hcpu
        have hmoves := Sys.mc_cycle (Io.ports dev) h.cpu.ir
          (s := (h.drawnSys dev).latchIrq (h.irqLine dev)) hin
        have hir := Sys.ir_cycle (Io.ports dev) (decode h.cpu.ir) (mCycles h.cpu.ir)
          ((h.drawnSys dev).latchIrq (h.irqLine dev))
        rw [← hcycle] at hmoves hir
        rcases hmoves with hzero | ⟨hnext, -⟩ | ⟨-, hhalt⟩
        · exact absurd hzero (Sys.mc_ne_of_not_executed hdone)
        · have hir' : (h.machineCycle dev).cpu.ir = h.cpu.ir := hir
          have hnext' : (h.machineCycle dev).cpu.mc.toNat = h.cpu.mc.toNat + 1 := hnext
          refine ih ?_ (Sys.mc_ne_of_not_executed hdone) ?_
          · exact inCycle_machineCycle dev _
          · rw [hir', hnext']
            omega
        · simp [Sys.isInstructionExecuted, hhalt] at hdone

theorem executeCycles_isSome (dev : Devices δ) (h : Hardware δ) : (h.executeCycles dev).isSome := by
  rw [executeCycles]
  generalize h.setMem h.mem.debugInit = s
  rw [cyclesMax, runCycles]
  by_cases hdone : (s.machineCycle dev).isInstructionExecuted = true
  · simp only [if_pos hdone]
    rfl
  · simp only [if_neg hdone]
    have hbound := (Sys.mCycles_bounds (s.machineCycle dev).cpu.ir).2
    apply runCycles_isSome dev
    · exact inCycle_machineCycle dev _
    · exact Sys.mc_ne_of_not_executed hdone
    · omega

/-! ## Between instructions -/

structure Parked (h : Hardware δ) : Prop where
  cpu : h.toSys.Parked
  slot : h.io.Settled

theorem Parked.turning {h : Hardware δ} (hparked : h.Parked) : h.toSys.Turning :=
  ⟨hparked.cpu.sequenced, .inl hparked.slot⟩

theorem parked_executeCycles {dev : Devices δ} {h t : Hardware δ} (hparked : h.Parked)
    (hrun : h.executeCycles dev = some t) : t.Parked := by
  refine runCycles_rule (P := fun s => s.toSys.Turning) (Q := Parked) ?_ ?_ hrun
  · intro s hs
    have hnext := turning_machineCycle dev hs
    split
    · rename_i hdone
      exact ⟨⟨hnext.sequenced, hdone⟩, hnext.settled hdone⟩
    · exact hnext
  · exact ⟨⟨hparked.turning.sequenced.inCycle, hparked.turning.sequenced.pending,
      hparked.turning.sequenced.halted⟩, hparked.turning.slot⟩

theorem parked_ofRam (ram : Ram) (devices : δ) : (ofRam ram devices).Parked :=
  ⟨Sys.parked_ofReset _ _, rfl⟩

theorem parked_reset (dev : Devices δ) (h : Hardware δ) : (h.reset dev).Parked := by
  have hcpu := Sys.parked_ofReset (h.reset dev).mem (h.reset dev).io
  exact ⟨⟨⟨hcpu.sequenced.inCycle, hcpu.sequenced.pending, hcpu.sequenced.halted⟩, hcpu.executed⟩, rfl⟩

theorem mem_drawnSys (dev : Devices δ) {h : Hardware δ} (hslot : h.io.Settled) :
    (h.drawnSys dev).mem = h.mem := by
  have hmem := Raster.mem_rasterize dev (r := h.raster) hslot.armed
  exact hmem.trans (Bus.dueMem_of_settled hslot)

theorem settled_drawnSys (dev : Devices δ) {h : Hardware δ} (harmed : h.io.Armed) :
    (h.drawnSys dev).io.Settled := (Raster.rasterize_events dev (r := h.raster) harmed).2

theorem irqLine_setMem (dev : Devices δ) (h : Hardware δ) {mem : Memory} (hram : h.mem.ram = mem.ram) :
    (h.setMem mem).irqLine dev = h.irqLine dev := by
  have halike : Raster.Alike (fun b b' => b.io = b'.io ∧ b.mem.ram = b'.mem.ram) h.raster
      (h.setMem mem).raster := ⟨⟨rfl, hram⟩, rfl⟩
  have hdisplay := (halike.rasterize (Bus.bisimulation_io_ram dev)).display
  exact congrArg (fun d : Display => d.update.irq) hdisplay.symm

end Hardware

end V6Emul
