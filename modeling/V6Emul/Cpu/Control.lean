import V6Emul.Cpu.Decode

/-!
# The control part of the processor

`IR`, `MC` and the interrupt flip-flops decide how a run proceeds.  Of the
instruction helpers only `EI`, `DI`, `HLT` and the conditional branches that end
early touch them; every other helper leaves the control part as it is.
-/

namespace V6Emul

structure Control where
  ir : Byte
  mc : BitVec 4
  inte : Bool
  iff : Bool
  hlta : Bool
  eiPending : Bool
  deriving DecidableEq, Repr

def CpuState.control (s : CpuState) : Control :=
  ⟨s.ir, s.mc, s.inte, s.iff, s.hlta, s.eiPending⟩

@[simp] theorem CpuState.control_setReg (s : CpuState) (r : Reg) (v : Byte) :
    (s.setReg r v).control = s.control := by
  cases r <;> rfl

@[simp] theorem CpuState.control_setPair (s : CpuState) (p : Pair) (v : RegPair) :
    (s.setPair p v).control = s.control := by
  cases p <;> rfl

namespace Sys

variable {σ : Type}

def control (s : Sys σ) : Control := s.cpu.control

/-! ## Building blocks -/

section Blocks

variable (s : Sys σ)

@[simp] theorem control_setReg (r : Reg) (v : Byte) : (s.setReg r v).control = s.control :=
  s.cpu.control_setReg r v

@[simp] theorem control_setPair (p : Pair) (v : RegPair) : (s.setPair p v).control = s.control :=
  s.cpu.control_setPair p v

@[simp] theorem control_readInstrMovePC (byteNum : Fin 3) :
    (s.readInstrMovePC byteNum).2.control = s.control := rfl

@[simp] theorem control_readByte (addr : Addr) (space : AddrSpace) (byteNum : Fin 2) :
    (s.readByte addr space byteNum).2.control = s.control := rfl

@[simp] theorem control_writeByte (addr : Addr) (v : Byte) (space : AddrSpace)
    (byteNum : Fin 2) : (s.writeByte addr v space byteNum).control = s.control := rfl

@[simp] theorem control_fetchTmp : s.fetchTmp.control = s.control := rfl

@[simp] theorem control_fetchZ : s.fetchZ.control = s.control := rfl

@[simp] theorem control_fetchW : s.fetchW.control = s.control := rfl

@[simp] theorem control_fetchPort : s.fetchPort.control = s.control := rfl

@[simp] theorem control_incWZ : s.incWZ.control = s.control := rfl

@[simp] theorem control_incSP : s.incSP.control = s.control := rfl

@[simp] theorem control_decSP : s.decSP.control = s.control := rfl

@[simp] theorem control_popZ : s.popZ.control = s.control := rfl

@[simp] theorem control_popW : s.popW.control = s.control := rfl

@[simp] theorem control_jumpWZ : s.jumpWZ.control = s.control := rfl

@[simp] theorem control_readTmp : s.readTmp.control = s.control := rfl

@[simp] theorem control_latchAct : s.latchAct.control = s.control := rfl

@[simp] theorem control_latchOperands (r : Reg) : (s.latchOperands r).control = s.control := rfl

@[simp] theorem control_add (a b : Byte) (cy : Bool) : (s.add a b cy).control = s.control := rfl

@[simp] theorem control_sub (a b : Byte) (cy : Bool) : (s.sub a b cy).control = s.control := rfl

@[simp] theorem control_addActTmp (cy : Bool) : (s.addActTmp cy).control = s.control := rfl

@[simp] theorem control_subActTmp (cy : Bool) : (s.subActTmp cy).control = s.control := rfl

@[simp] theorem control_andActTmp : s.andActTmp.control = s.control := rfl

@[simp] theorem control_xorActTmp : s.xorActTmp.control = s.control := rfl

@[simp] theorem control_orActTmp : s.orActTmp.control = s.control := rfl

@[simp] theorem control_cmpActTmp : s.cmpActTmp.control = s.control := rfl

@[simp] theorem control_incTmp : s.incTmp.control = s.control := rfl

@[simp] theorem control_decTmp : s.decTmp.control = s.control := rfl

theorem control_memOp {op : Sys σ → Sys σ} (h : ∀ t, (op t).control = t.control) :
    (s.memOp op).control = s.control := by
  unfold memOp
  split <;> simp [h]

theorem control_immOp {op : Sys σ → Sys σ} (h : ∀ t, (op t).control = t.control) :
    (s.immOp op).control = s.control := by
  unfold immOp
  split <;> simp [h]

end Blocks

/-! ## What a helper does to the control part -/

def controlAfter (micro : Micro) (s : Sys σ) : Control :=
  match micro with
  | .di => { s.control with inte := false }
  | .ei => { s.control with inte := true, eiPending := true }
  -- the call is not taken: its remaining cycles are skipped
  | .call condition =>
      if s.cpu.mc = 3 ∧ s.cpu.cond condition = false then { s.control with mc := 5 }
      else s.control
  | .retCond condition =>
      if s.cpu.mc = 1 ∧ s.cpu.cond condition = false then { s.control with mc := 3 }
      else s.control
  -- the halt state repeats cycle 1
  | .hlt =>
      if s.cpu.mc = 1 ∧ s.cpu.iff = false then { s.control with hlta := true, mc := 0 }
      else s.control
  | _ => s.control

theorem mc_toNat_ne {mc : BitVec 4} {n : BitVec 4} (h : mc ≠ n) : mc.toNat ≠ n.toNat :=
  fun heq => h (BitVec.eq_of_toNat_eq heq)

theorem control_call (condition : Condition) (s : Sys σ) :
    (s.call (s.cpu.cond condition)).control = controlAfter (.call condition) s := by
  cases hcond : s.cpu.cond condition with
  | true =>
      rw [controlAfter, if_neg (by simp [hcond])]
      unfold call
      split <;> simp
  | false =>
      by_cases hmc : s.cpu.mc = 3
      · rw [controlAfter, if_pos ⟨hmc, hcond⟩]
        simp only [call, hmc]
        rfl
      · rw [controlAfter, if_neg (fun h => hmc h.1)]
        have hne := mc_toNat_ne hmc
        unfold call
        split <;> simp_all

theorem control_retCond (condition : Condition) (s : Sys σ) :
    (s.retCond (s.cpu.cond condition)).control = controlAfter (.retCond condition) s := by
  cases hcond : s.cpu.cond condition with
  | true =>
      rw [controlAfter, if_neg (by simp [hcond])]
      unfold retCond
      split <;> simp
  | false =>
      by_cases hmc : s.cpu.mc = 1
      · rw [controlAfter, if_pos ⟨hmc, hcond⟩]
        simp only [retCond, hmc]
        rfl
      · rw [controlAfter, if_neg (fun h => hmc h.1)]
        have hne := mc_toNat_ne hmc
        unfold retCond
        split <;> simp_all

theorem control_hlt (s : Sys σ) : s.hlt.control = controlAfter .hlt s := by
  by_cases hmc : s.cpu.mc = 1
  · cases hiff : s.cpu.iff with
    | true =>
        rw [controlAfter, if_neg (by simp [hiff])]
        simp [hlt, hmc, readInstrMovePC, hiff, control, CpuState.control]
    | false =>
        rw [controlAfter, if_pos ⟨hmc, hiff⟩]
        simp [hlt, hmc, readInstrMovePC, hiff, control, CpuState.control]
  · rw [controlAfter, if_neg (fun h => hmc h.1)]
    have hne := mc_toNat_ne hmc
    unfold hlt
    split
    · rfl
    · contradiction
    · rfl

theorem control_exec (ports : PortFuncs σ) (micro : Micro) (s : Sys σ) :
    (s.exec ports micro).control = controlAfter micro s := by
  cases micro with
  | call condition => exact control_call condition s
  | retCond condition => exact control_retCond condition s
  | hlt => exact control_hlt s
  | addMem | subMem | amaMem | xraMem | oraMem | cmpMem =>
      exact control_memOp s (by intro t; rfl)
  | adi | sbi | ani | xri | ori | cpi =>
      exact control_immOp s (by intro t; rfl)
  | _ =>
      simp only [exec, controlAfter, movRegReg, loadRegPtr, movMemReg, mviRegData, mviMemData,
        lda, sta, stax, lxi, lhld, shld, sphl, xthl, push, popPSW, pop, dad, inr, inrMem, dcr,
        dcrMem, inx, dcx, jmp, pchl, ret, rst, in_, out_]
      repeat' split
      all_goals first | rfl | simp

@[simp] theorem ir_exec (ports : PortFuncs σ) (micro : Micro) (s : Sys σ) :
    (s.exec ports micro).cpu.ir = s.cpu.ir := by
  have h : (s.exec ports micro).control.ir = (controlAfter micro s).ir := by
    rw [control_exec]
  have hir : (controlAfter micro s).ir = s.cpu.ir := by
    unfold controlAfter
    repeat' split
    all_goals rfl
  exact h.trans hir

/-! ## Cycles of one instruction -/

/-- One machine cycle of an instruction that has been fetched. -/
def cycle (ports : PortFuncs σ) (micro : Micro) (len : Nat) (s : Sys σ) : Sys σ :=
  ((s.exec ports micro).stepMC len).addCC

@[simp] theorem ir_cycle (ports : PortFuncs σ) (micro : Micro) (len : Nat) (s : Sys σ) :
    (s.cycle ports micro len).cpu.ir = s.cpu.ir := ir_exec ports micro s

theorem decodeCycle_eq (ports : PortFuncs σ) (s : Sys σ) :
    (s.decodeCycle ports).addCC = s.cycle ports (decode s.cpu.ir) (mCycles s.cpu.ir) := by
  simp only [decodeCycle, ir_exec, cycle]

def enter (irq : Bool) (s : Sys σ) : Sys σ :=
  if s.cpu.mc = 0 then (s.latchIrq irq).beginInstruction else s.latchIrq irq

theorem executeMachineCycle_eq (ports : PortFuncs σ) (irq : Bool) (s : Sys σ) :
    s.executeMachineCycle ports irq =
      (s.enter irq).cycle ports (decode (s.enter irq).cpu.ir) (mCycles (s.enter irq).cpu.ir) :=
  decodeCycle_eq ports (s.enter irq)

theorem enter_of_mc_ne (irq : Bool) {s : Sys σ} (hmc : s.cpu.mc ≠ 0) :
    s.enter irq = s.latchIrq irq := if_neg hmc

theorem enter_of_fetch {irq : Bool} {s : Sys σ} (hmc : s.cpu.mc = 0)
    (hno : ((s.latchIrq irq).cpu.iff && !s.cpu.eiPending) = false) :
    s.enter irq = (s.latchIrq irq).fetchOpcode := by
  have hno' : ((s.latchIrq irq).cpu.iff && !(s.latchIrq irq).cpu.eiPending) = false := hno
  rw [enter, if_pos hmc, beginInstruction, hno']
  rfl

theorem enter_of_accept {irq : Bool} {s : Sys σ} (hmc : s.cpu.mc = 0)
    (hyes : ((s.latchIrq irq).cpu.iff && !s.cpu.eiPending) = true) :
    s.enter irq = (s.latchIrq irq).acceptInterrupt := by
  have hyes' : ((s.latchIrq irq).cpu.iff && !(s.latchIrq irq).cpu.eiPending) = true := hyes
  rw [enter, if_pos hmc, beginInstruction, if_pos hyes']

theorem mc_ne_of_not_executed {s : Sys σ} (h : ¬s.isInstructionExecuted = true) :
    s.cpu.mc ≠ 0 := by
  intro hzero
  apply h
  simp [isInstructionExecuted, hzero]

/--
The cycles of an instruction from its first one on; requests are latched between
the cycles.
-/
def runCycles (ports : PortFuncs σ) (micro : Micro) (len : Nat) :
    Nat → (Nat → Bool) → Sys σ → Option (Sys σ × Nat)
  | 0, _, _ => none
  | fuel + 1, irq, s =>
      let s := s.cycle ports micro len
      if s.isInstructionExecuted then some (s, 1)
      else (runCycles ports micro len fuel (fun n => irq (n + 1)) (s.latchIrq (irq 0))).map
        fun (s, n) => (s, n + 1)

theorem executeInstruction_eq (ports : PortFuncs σ) (fuel : Nat) (irq : Nat → Bool) (s : Sys σ) :
    executeInstruction ports fuel irq s =
      runCycles ports (decode (s.enter (irq 0)).cpu.ir) (mCycles (s.enter (irq 0)).cpu.ir) fuel
        (fun n => irq (n + 1)) (s.enter (irq 0)) := by
  induction fuel generalizing irq s with
  | zero => rfl
  | succ fuel ih =>
      simp only [executeInstruction, executeMachineCycle_eq, runCycles]
      split
      · rfl
      · rename_i hrun
        rw [ih, enter_of_mc_ne _ (mc_ne_of_not_executed hrun)]
        rw [show ∀ b (t : Sys σ), (t.latchIrq b).cpu.ir = t.cpu.ir from fun _ _ => rfl, ir_cycle]

theorem executeInstruction_of_fetch (ports : PortFuncs σ) (fuel : Nat) (irq : Nat → Bool)
    (s : Sys σ) (hmc : s.cpu.mc = 0)
    (hno : ((s.latchIrq (irq 0)).cpu.iff && !s.cpu.eiPending) = false) :
    executeInstruction ports fuel irq s =
      runCycles ports (decode s.opcode) (mCycles s.opcode) fuel (fun n => irq (n + 1))
        (s.latchIrq (irq 0)).fetchOpcode := by
  rw [executeInstruction_eq, enter_of_fetch hmc hno]
  rfl

/-! ## Progress of `MC` -/

/-- `MC` stays below the cycle count of the instruction in `IR`. -/
def InCycle (s : Sys σ) : Prop := s.cpu.mc.toNat < mCycles s.cpu.ir

theorem mCycles_bounds (opcode : Byte) : 1 ≤ mCycles opcode ∧ mCycles opcode ≤ 6 := by
  have htable : ∀ len ∈ mCyclesTable, 1 ≤ len ∧ len ≤ 6 := by decide +kernel
  have hsize : mCyclesTable.length = 256 := by decide +kernel
  exact Indices.forall_getD htable 0 (hsize ▸ opcode.isLt)

theorem inCycle_cycle (ports : PortFuncs σ) (op : Byte) (s : Sys σ) :
    (s.cycle ports (decode op) (mCycles op)).cpu.mc.toNat < mCycles op := by
  obtain ⟨hpos, hle⟩ := mCycles_bounds op
  change (BitVec.ofNat 4 (_ % mCycles op)).toNat < _
  rw [BitVec.toNat_ofNat]
  exact Nat.lt_of_le_of_lt (Nat.mod_le _ _) (Nat.mod_lt _ hpos)

theorem inCycle_decodeCycle (ports : PortFuncs σ) (s : Sys σ) :
    ((s.decodeCycle ports).addCC).InCycle := by
  rw [decodeCycle_eq, InCycle, ir_cycle]
  exact inCycle_cycle ports s.cpu.ir s

theorem inCycle_executeMachineCycle (ports : PortFuncs σ) (irq : Bool) (s : Sys σ) :
    (s.executeMachineCycle ports irq).InCycle :=
  inCycle_decodeCycle ports _

theorem mCycles_of_early_exit (op : Byte) :
    (∀ condition, decode op = .call condition → mCycles op = 6) ∧
    (∀ condition, decode op = .retCond condition → mCycles op = 4) ∧
    (decode op = .hlt → op = opcodeHlt) := by
  have h : (match decode op with
      | .call _ => mCycles op == 6
      | .retCond _ => mCycles op == 4
      | .hlt => op == opcodeHlt
      | _ => true) = true := by
    revert op
    decide +kernel
  refine ⟨?_, ?_, ?_⟩
  · intro condition hdecode
    simpa [hdecode] using h
  · intro condition hdecode
    simpa [hdecode] using h
  · intro hdecode
    simpa [hdecode] using h

theorem mc_cycle_eq (ports : PortFuncs σ) (micro : Micro) (len : Nat) (s : Sys σ) :
    (s.cycle ports micro len).cpu.mc =
      BitVec.ofNat 4 (((controlAfter micro s).mc + 1).toNat % len) := by
  rw [← control_exec ports micro s]
  rfl

theorem mc_cycle (ports : PortFuncs σ) (op : Byte) {s : Sys σ}
    (hin : s.cpu.mc.toNat < mCycles op) :
    (s.cycle ports (decode op) (mCycles op)).cpu.mc = 0 ∨
    ((s.cycle ports (decode op) (mCycles op)).cpu.mc.toNat = s.cpu.mc.toNat + 1 ∧
      (controlAfter (decode op) s).mc = s.cpu.mc) ∨
    (op = opcodeHlt ∧ (s.cycle ports (decode op) (mCycles op)).cpu.hlta = true) := by
  obtain ⟨hcall, hret, hhlt⟩ := mCycles_of_early_exit op
  obtain ⟨hpos, hle⟩ := mCycles_bounds op
  have hstay : (controlAfter (decode op) s).mc = s.cpu.mc →
      (s.cycle ports (decode op) (mCycles op)).cpu.mc = 0 ∨
      (s.cycle ports (decode op) (mCycles op)).cpu.mc.toNat = s.cpu.mc.toNat + 1 := by
    intro hmc
    have hone : (s.cpu.mc + 1).toNat = s.cpu.mc.toNat + 1 := by
      rw [BitVec.toNat_add]
      exact Nat.mod_eq_of_lt (show s.cpu.mc.toNat + 1 < 16 by omega)
    rw [mc_cycle_eq, hmc, hone]
    rcases Nat.lt_or_eq_of_le (show s.cpu.mc.toNat + 1 ≤ mCycles op from hin) with hlt | heq
    · right
      rw [BitVec.toNat_ofNat, Nat.mod_eq_of_lt hlt]
      exact Nat.mod_eq_of_lt (by omega)
    · left
      rw [heq, Nat.mod_self]
      rfl
  by_cases hmc : (controlAfter (decode op) s).mc = s.cpu.mc
  · rcases hstay hmc with hzero | hnext
    · exact Or.inl hzero
    · exact Or.inr (Or.inl ⟨hnext, hmc⟩)
  · cases hdecode : decode op with
    | call condition =>
        left
        rw [hdecode, controlAfter] at hmc
        split at hmc
        · rename_i hnot
          rw [← hdecode, mc_cycle_eq, hcall condition hdecode, hdecode, controlAfter, if_pos hnot]
          exact (by decide : BitVec.ofNat 4 ((5 + 1 : BitVec 4).toNat % 6) = 0)
        · exact absurd rfl hmc
    | retCond condition =>
        left
        rw [hdecode, controlAfter] at hmc
        split at hmc
        · rename_i hnot
          rw [← hdecode, mc_cycle_eq, hret condition hdecode, hdecode, controlAfter, if_pos hnot]
          exact (by decide : BitVec.ofNat 4 ((3 + 1 : BitVec 4).toNat % 4) = 0)
        · exact absurd rfl hmc
    | hlt =>
        right
        right
        refine ⟨hhlt hdecode, ?_⟩
        rw [hdecode, controlAfter] at hmc
        split at hmc
        · rename_i hwait
          have hexec := control_exec ports .hlt s
          rw [controlAfter, if_pos hwait] at hexec
          exact congrArg Control.hlta hexec
        · exact absurd rfl hmc
    | _ => exact absurd (by rw [hdecode]; rfl) hmc

end Sys

end V6Emul
