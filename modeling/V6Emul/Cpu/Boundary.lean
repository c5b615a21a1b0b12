import V6Emul.Cpu.WriteRecord

/-!
# Between instructions

An instruction starts where the one before it ended: at cycle 0, or in the second
cycle of a `HLT` that waits.  The invariant of all machine cycles that this rests on
is that the processor is halted only there, or with an interrupt about to be taken.
-/

namespace V6Emul.Sys

variable {σ : Type}

structure Sequenced (s : Sys σ) : Prop where
  inCycle : s.InCycle
  pending : s.cpu.eiPending = true → s.cpu.mc = 0
  halted : s.cpu.hlta = true →
    s.cpu.ir = opcodeHlt ∧ s.cpu.eiPending = false ∧ (s.cpu.mc = 1 ∨ s.cpu.iff = true)

theorem sequenced_ofReset (mem : Memory) (io : σ) : (ofReset mem io).Sequenced :=
  ⟨show 0 < mCycles 0 by decide, fun _ => rfl, fun h => absurd h Bool.false_ne_true⟩

/-! ## Machine cycles -/

section Cycles

variable (ports : PortFuncs σ) {irq : Bool} {s : Sys σ}

theorem decode_hlt (op : Byte) : decode op = .hlt ↔ op = opcodeHlt := by
  revert op
  decide +kernel

theorem hlta_controlAfter (micro : Micro) (t : Sys σ) :
    (controlAfter micro t).hlta =
      if micro = .hlt ∧ t.cpu.mc = 1 ∧ t.cpu.iff = false then true else t.cpu.hlta := by
  cases micro with
  | hlt =>
      simp only [controlAfter, true_and]
      split <;> rfl
  | call condition | retCond condition =>
      simp only [controlAfter, reduceCtorEq, false_and, if_false]
      split <;> rfl
  | _ => simp [controlAfter, control, CpuState.control]

theorem hlta_cycle (op : Byte) (t : Sys σ) :
    (t.cycle ports (decode op) (mCycles op)).cpu.hlta =
      if op = opcodeHlt ∧ t.cpu.mc = 1 ∧ t.cpu.iff = false then true else t.cpu.hlta := by
  have hcontrol := hlta_controlAfter (decode op) t
  rw [← control_exec ports] at hcontrol
  simp only [decode_hlt] at hcontrol
  exact hcontrol

theorem mc_cycle_hlt {t : Sys σ} (hmc : t.cpu.mc = 1) (hiff : t.cpu.iff = false) :
    (t.cycle ports (decode opcodeHlt) (mCycles opcodeHlt)).cpu.mc = 1 := by
  have hdecode : decode opcodeHlt = .hlt := rfl
  rw [mc_cycle_eq, hdecode, controlAfter, if_pos ⟨hmc, hiff⟩]
  rfl

theorem Sequenced.eiPending_step (h : s.Sequenced)
    (hpending : (s.executeMachineCycle ports irq).cpu.eiPending = true) :
    (s.executeMachineCycle ports irq).cpu.mc = 0 := by
  by_cases hmc : s.cpu.mc = 0
  · by_cases hacc : s.Accepts irq
    · rw [(accepts_step ports hacc).2.2] at hpending
      contradiction
    · have hfetch : s.Fetches irq s.opcode := ⟨hmc, hacc, rfl⟩
      rw [(fetches_step ports hfetch).2.2.2, decide_eq_true_eq] at hpending
      exact mc_eq_zero_of_fetches ports hfetch (hpending ▸ rfl)
  · rw [(continues_step ports hmc h.inCycle).2.2] at hpending
    exact absurd (h.pending hpending) hmc

theorem Sequenced.not_halted (h : s.Sequenced) (hmc : s.cpu.mc = 0) (hno : ¬ s.Accepts irq) :
    s.cpu.hlta = false := by
  rw [Bool.eq_false_iff]
  intro hhalt
  obtain ⟨-, hpending, hone | hiff⟩ := h.halted hhalt
  · rw [hmc] at hone
    exact absurd hone (by decide)
  · apply hno
    refine ⟨hmc, ?_, hpending⟩
    simp [Latched, latchIrq, hiff]

theorem Sequenced.halted_step (h : s.Sequenced)
    (hhalt : (s.executeMachineCycle ports irq).cpu.hlta = true) :
    (s.executeMachineCycle ports irq).cpu.ir = opcodeHlt ∧
      (s.executeMachineCycle ports irq).cpu.eiPending = false ∧
      ((s.executeMachineCycle ports irq).cpu.mc = 1 ∨
        (s.executeMachineCycle ports irq).cpu.iff = true) := by
  by_cases hmc : s.cpu.mc = 0
  · exfalso
    by_cases hacc : s.Accepts irq
    · rw [executeMachineCycle_eq, enter_of_accept hmc (accepts_iff.mp hacc).2, hlta_cycle,
        if_neg (fun hc => absurd hc.1 (by decide : opcodeRst7 ≠ opcodeHlt))] at hhalt
      exact Bool.false_ne_true hhalt
    · have hoff := h.not_halted hmc hacc
      have hentry : (s.latchIrq irq).fetchOpcode.cpu.mc = 0 := hmc
      rw [executeMachineCycle_eq, enter_of_fetch hmc (not_interrupted_of_fetches ⟨hmc, hacc, rfl⟩),
        hlta_cycle, if_neg (by simp [hentry])] at hhalt
      exact Bool.false_ne_true (hoff.symm.trans hhalt)
  · obtain ⟨hiff, -, hpending⟩ := @continues_step _ ports irq _ hmc h.inCycle
    have hfirst : s.cpu.eiPending = false := Bool.eq_false_iff.mpr fun hp => hmc (h.pending hp)
    rw [hiff, hpending]
    rw [executeMachineCycle_eq, enter_of_mc_ne irq hmc] at hhalt ⊢
    rw [hlta_cycle] at hhalt
    rw [ir_cycle]
    split at hhalt
    · rename_i hwait
      obtain ⟨hir, hone, hno⟩ := hwait
      have hmcs := mc_cycle_hlt ports hone hno
      rw [← hir] at hmcs
      exact ⟨hir, hfirst, .inl hmcs⟩
    · rename_i hnot
      obtain ⟨hir, -, hone | hlatched⟩ := h.halted hhalt
      · refine ⟨hir, hfirst, .inr ?_⟩
        by_contra hno
        exact hnot ⟨hir, hone, Bool.eq_false_iff.mpr hno⟩
      · refine ⟨hir, hfirst, .inr ?_⟩
        simp [Latched, latchIrq, hlatched]

theorem Sequenced.step (h : s.Sequenced) : (s.executeMachineCycle ports irq).Sequenced :=
  ⟨inCycle_executeMachineCycle ports irq s, h.eiPending_step ports, h.halted_step ports⟩

end Cycles

/-! ## Boundaries -/

theorem ir_enter (irq : Bool) (s : Sys σ) : (s.enter irq).cpu.ir = s.nextOpcode irq := by
  by_cases hmc : s.cpu.mc = 0
  · rw [nextOpcode, if_neg (not_not_intro hmc)]
    by_cases hacc : s.Accepts irq
    · rw [enter_of_accept hmc (accepts_iff.mp hacc).2, if_pos hacc]
      rfl
    · rw [enter_of_fetch hmc (not_interrupted_of_fetches ⟨hmc, hacc, rfl⟩), if_neg hacc]
      rfl
  · rw [enter_of_mc_ne irq hmc, nextOpcode, if_pos hmc]
    rfl

structure Parked (s : Sys σ) : Prop where
  sequenced : s.Sequenced
  executed : s.isInstructionExecuted = true

theorem parked_ofReset (mem : Memory) (io : σ) : (ofReset mem io).Parked :=
  ⟨sequenced_ofReset mem io, rfl⟩

theorem Parked.startable {s : Sys σ} (h : s.Parked) (irq : Bool) : s.Startable irq := by
  have hexecuted := h.executed
  have hcycle : s.cpu.mc = 0 ∨ s.cpu.hlta = true := by
    simpa [isInstructionExecuted] using hexecuted
  by_cases hmc : s.cpu.mc = 0
  · refine .inl ⟨hmc, ?_⟩
    by_cases hacc : s.Accepts irq
    · exact .inr hacc
    · exact .inl (h.sequenced.not_halted hmc hacc)
  · have hhalt := hcycle.resolve_left hmc
    obtain ⟨hir, -, -⟩ := h.sequenced.halted hhalt
    have hlt : s.cpu.mc.toNat < mCycles s.cpu.ir := h.sequenced.inCycle
    have hpos := Nat.pos_of_ne_zero (mc_toNat_ne hmc)
    rw [hir, show mCycles opcodeHlt = 2 from rfl] at hlt
    have hone : s.cpu.mc.toNat = (1 : BitVec 4).toNat := by
      change s.cpu.mc.toNat = 1
      omega
    exact .inr ⟨BitVec.eq_of_toNat_eq hone, hir, hhalt⟩

end V6Emul.Sys
