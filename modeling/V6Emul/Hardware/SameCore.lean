import V6Emul.Hardware.PortService

/-!
# What the processor does not see

A machine cycle depends on the registers, on the memory but for its debug record, and on
what `IN` returns.
-/

namespace V6Emul

def Memory.seen (m : Memory) : Memory := { m with debug := .empty }

namespace Sys

variable {σ : Type}

structure SameCore (s s' : Sys σ) : Prop where
  cpu : s.cpu = s'.cpu
  mem : s.mem.seen = s'.mem.seen

def recast (debug : Debug) (io : σ) (stores : List Store) (s : Sys σ) : Sys σ :=
  { s with mem := { s.mem with debug := debug }, io := io, stores := stores }

theorem SameCore.eq_recast {s s' : Sys σ} (h : s.SameCore s') :
    s' = s.recast s'.mem.debug s'.io s'.stores := by
  obtain ⟨cpu', mem', io', stores'⟩ := s'
  have hcpu : s.cpu = cpu' := h.cpu
  have hmem : { s.mem with debug := mem'.debug } = mem' :=
    congrArg (fun m : Memory => { m with debug := mem'.debug }) h.mem
  rw [recast, hmem, hcpu]

theorem sameCore_of_recast {debug : Debug} {io : σ} {stores : List Store} {s s' : Sys σ}
    (h : s'.recast debug io stores = s.recast debug io stores) : s.SameCore s' := by
  have hcpu := congrArg Sys.cpu h
  have hmem := congrArg (fun t : Sys σ => t.mem.seen) h
  exact ⟨hcpu.symm, hmem.symm⟩

/-! ## One cycle -/

section

variable (debug : Debug) (io : σ) (stores : List Store) (s : Sys σ)

theorem recast_memOp {op : Sys σ → Sys σ}
    (hop : ∀ t, op (t.recast debug io stores) = (op t).recast debug io stores) :
    ((s.recast debug io stores).memOp op).recast debug io stores =
      (s.memOp op).recast debug io stores := by
  have hmc : (s.recast debug io stores).cpu.mc.toNat = s.cpu.mc.toNat := rfl
  simp only [memOp, hmc]
  split
  · rfl
  · rw [← hop, ← hop]
    exact congrArg op rfl
  · rfl

theorem recast_immOp {op : Sys σ → Sys σ}
    (hop : ∀ t, op (t.recast debug io stores) = (op t).recast debug io stores) :
    ((s.recast debug io stores).immOp op).recast debug io stores =
      (s.immOp op).recast debug io stores := by
  have hmc : (s.recast debug io stores).cpu.mc.toNat = s.cpu.mc.toNat := rfl
  simp only [immOp, hmc]
  split
  · rfl
  · rw [← hop, ← hop]
    exact congrArg op rfl
  · rfl

theorem recast_exec (ports : PortFuncs σ) {micro : Micro} (hin : micro ≠ .in_)
    (hout : micro ≠ .out_) :
    ((s.recast debug io stores).exec ports micro).recast debug io stores =
      (s.exec ports micro).recast debug io stores := by
  have hcpu : (s.recast debug io stores).cpu = s.cpu := rfl
  cases micro with
  | in_ => contradiction
  | out_ => contradiction
  | jmp condition | call condition | retCond condition =>
      simp only [exec, jmp, call, retCond, hcpu]
      generalize s.cpu.cond condition = taken
      split <;> cases taken <;> rfl
  | hlt =>
      have hread : ((s.recast debug io stores).readInstrMovePC 0).2.cpu.iff = s.cpu.iff := rfl
      have hread' : (s.readInstrMovePC 0).2.cpu.iff = s.cpu.iff := rfl
      simp only [exec, hlt, hcpu, hread, hread']
      generalize s.cpu.iff = latched
      split <;> cases latched <;> rfl
  | addMem | subMem | amaMem | xraMem | oraMem | cmpMem =>
      exact recast_memOp debug io stores s fun _ => rfl
  | adi | sbi | ani | xri | ori | cpi =>
      exact recast_immOp debug io stores s fun _ => rfl
  | movRegReg | loadRegPtr | movMemReg | mviRegData | mviMemData | lda | sta | stax | lxi | lhld
  | shld | sphl | xthl | push | pop | popPSW | dad | inr | inrMem | dcr | dcrMem | inx | dcx | pchl
  | ret | rst =>
      simp only [exec, movRegReg, loadRegPtr, movMemReg, mviRegData, mviMemData,
        lda, sta, stax, lxi, lhld, shld, sphl, xthl, push, popPSW, pop, dad, inr, inrMem, dcr,
        dcrMem, inx, dcx, pchl, ret, rst, hcpu]
      split <;> rfl
  | _ => rfl

theorem recast_enter (irq : Bool) :
    ((s.recast debug io stores).enter irq).recast debug io stores =
      (s.enter irq).recast debug io stores := by
  have hmc : (s.recast debug io stores).cpu.mc = s.cpu.mc := rfl
  have hlatch : ((s.recast debug io stores).latchIrq irq).cpu = (s.latchIrq irq).cpu := rfl
  simp only [enter, beginInstruction, hmc, hlatch]
  split
  · split <;> rfl
  · rfl

end

namespace SameCore

variable {s s' : Sys σ} (h : s.SameCore s')
include h

theorem exec (ports : PortFuncs σ) {micro : Micro} (hin : micro ≠ .in_) (hout : micro ≠ .out_) :
    (s.exec ports micro).SameCore (s'.exec ports micro) := by
  rw [h.eq_recast]
  exact sameCore_of_recast (recast_exec _ _ _ s ports hin hout)

theorem enter (irq : Bool) : (s.enter irq).SameCore (s'.enter irq) := by
  rw [h.eq_recast]
  exact sameCore_of_recast (recast_enter _ _ _ s irq)

theorem fetchPort : s.fetchPort.SameCore s'.fetchPort := by
  rw [h.eq_recast]
  exact ⟨rfl, rfl⟩

end SameCore

end Sys

structure PortFuncs.Relates {σ : Type} (ports : PortFuncs σ) (S A : σ → σ → Prop) : Prop where
  idle : ∀ {io io'}, S io io' → A io io'
  input : ∀ {io io'}, S io io' → ∀ port,
    (ports.input port io).1 = (ports.input port io').1 ∧
      A (ports.input port io).2 (ports.input port io').2
  output : ∀ {io io'}, S io io' → ∀ port value,
    A (ports.output port value io) (ports.output port value io')

namespace Sys

variable {σ : Type} {ports : PortFuncs σ} {S A : σ → σ → Prop} {s s' : Sys σ}

namespace SameCore

theorem in_ (hports : ports.Relates S A) (h : s.SameCore s') (hio : S s.io s'.io) :
    (s.in_ ports).SameCore (s'.in_ ports) ∧ A (s.in_ ports).io (s'.in_ ports).io := by
  unfold Sys.in_
  rw [← h.cpu]
  split
  · exact ⟨h.fetchPort, hports.idle hio⟩
  · obtain ⟨hvalue, hnext⟩ := hports.input hio s.cpu.wz.l
    refine ⟨⟨?_, h.mem⟩, hnext⟩
    exact congrArg (fun value => { s.cpu with a := value }) hvalue
  · exact ⟨h, hports.idle hio⟩

theorem out_ (hports : ports.Relates S A) (h : s.SameCore s') (hio : S s.io s'.io) :
    (s.out_ ports).SameCore (s'.out_ ports) ∧ A (s.out_ ports).io (s'.out_ ports).io := by
  unfold Sys.out_
  rw [← h.cpu]
  split
  · have hfetch := h.fetchPort
    refine ⟨⟨hfetch.cpu, hfetch.mem⟩, ?_⟩
    change A (ports.output s.fetchPort.cpu.wz.l s.fetchPort.cpu.a s.io)
      (ports.output s'.fetchPort.cpu.wz.l s'.fetchPort.cpu.a s'.io)
    rw [← hfetch.cpu]
    exact hports.output hio _ _
  · exact ⟨h, hports.idle hio⟩

theorem executeMachineCycle (hports : ports.Relates S A) (irq : Bool) (h : s.SameCore s')
    (hio : S s.io s'.io) :
    (s.executeMachineCycle ports irq).SameCore (s'.executeMachineCycle ports irq) ∧
      A (s.executeMachineCycle ports irq).io (s'.executeMachineCycle ports irq).io := by
  have hentered := h.enter irq
  have hio' : S (s.enter irq).io (s'.enter irq).io := by
    rw [io_enter, io_enter]
    exact hio
  rw [executeMachineCycle_eq, executeMachineCycle_eq, ← hentered.cpu]
  generalize decode (s.enter irq).cpu.ir = micro
  generalize mCycles (s.enter irq).cpu.ir = len
  have hexec : ((s.enter irq).exec ports micro).SameCore ((s'.enter irq).exec ports micro) ∧
      A ((s.enter irq).exec ports micro).io ((s'.enter irq).exec ports micro).io := by
    by_cases hin : micro = .in_
    · rw [hin]
      exact hentered.in_ hports hio'
    · by_cases hout : micro = .out_
      · rw [hout]
        exact hentered.out_ hports hio'
      · rw [io_exec ports hin hout, io_exec ports hin hout]
        exact ⟨hentered.exec ports hin hout, hports.idle hio'⟩
  obtain ⟨hcore, hnext⟩ := hexec
  refine ⟨⟨?_, hcore.mem⟩, hnext⟩
  have hcpu := congrArg (fun cpu : CpuState =>
    { cpu with mc := BitVec.ofNat 4 ((cpu.mc + 1).toNat % len), cc := cpu.cc + 4 }) hcore.cpu
  exact hcpu

end SameCore

end Sys

end V6Emul
