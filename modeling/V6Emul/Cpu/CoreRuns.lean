import V6Emul.Cpu.Refinement
import V6Emul.Foundation.Interrupts
import V6Emul.Hardware.Halt

/-!
# Runs of instructions

What the machine cycles amount to over a run: instruction by instruction the processor is
the one-shot machine with its interrupts, whatever the request line does.
-/

namespace V6Emul

variable {σ : Type}

/-! ## What the cycles leave alone -/

structure Memory.Wired (m m' : Memory) : Prop where
  rom : m'.rom = m.rom
  update : m'.update = m.update

theorem Memory.Wired.refl (m : Memory) : m.Wired m := ⟨rfl, rfl⟩

theorem Memory.Wired.trans {m m' m'' : Memory} (h : m.Wired m') (h' : m'.Wired m'') :
    m.Wired m'' :=
  ⟨h'.rom.trans h.rom, h'.update.trans h.update⟩

theorem Memory.Wired.env {m m' : Memory} (h : m.Wired m') (ports : PortFuncs σ) :
    m'.env ports = m.env ports := by
  simp [Memory.env, getByte, getGlobalAddr, overlay, h.rom, h.update]

namespace Sys

theorem rom_memOp (s : Sys σ) {op : Sys σ → Sys σ} (h : ∀ t, (op t).mem.rom = t.mem.rom) :
    (s.memOp op).mem.rom = s.mem.rom := by
  unfold memOp
  split
  · rfl
  · exact h s.readTmp
  · rfl

theorem rom_immOp (s : Sys σ) {op : Sys σ → Sys σ} (h : ∀ t, (op t).mem.rom = t.mem.rom) :
    (s.immOp op).mem.rom = s.mem.rom := by
  unfold immOp
  split
  · rfl
  · exact h s.fetchTmp
  · rfl

theorem wired_exec (ports : PortFuncs σ) (micro : Micro) (s : Sys σ) :
    s.mem.Wired (s.exec ports micro).mem := by
  refine ⟨?_, (storesNext_exec ports s micro).1⟩
  cases micro with
  | addMem | subMem | amaMem | xraMem | oraMem | cmpMem => exact rom_memOp s (by intro t; rfl)
  | adi | sbi | ani | xri | ori | cpi => exact rom_immOp s (by intro t; rfl)
  | _ =>
      simp only [exec, movRegReg, loadRegPtr, movMemReg, mviRegData, mviMemData, lda, sta, stax,
        lxi, lhld, shld, sphl, xthl, push, popPSW, pop, dad, inr, inrMem, dcr, dcrMem, inx, dcx,
        jmp, pchl, ret, rst, in_, out_, call, retCond, hlt]
      repeat' split
      all_goals rfl

theorem wired_executeMachineCycle (ports : PortFuncs σ) (irq : Bool) (s : Sys σ) :
    s.mem.Wired (s.executeMachineCycle ports irq).mem := by
  have henter : s.mem.Wired (s.enter irq).mem := by
    unfold enter beginInstruction
    split
    · split <;> exact ⟨rfl, rfl⟩
    · exact ⟨rfl, rfl⟩
  rw [executeMachineCycle_eq]
  exact henter.trans (wired_exec ports _ _)

/-! ## The rest of an instruction -/

theorem raised_succ (irq : Nat → Bool) (n : Nat) :
    I8080.raised irq (n + 1) = (irq 0 || I8080.raised (fun k => irq (k + 1)) n) := by
  simp [I8080.raised, List.range_succ_eq_map, Function.comp_def]

structure Finishes (irq : Nat → Bool) (s : Sys σ) (n : Nat) (t : Sys σ) : Prop where
  sequenced : t.Sequenced
  executed : t.isInstructionExecuted = true
  wired : s.mem.Wired t.mem
  ir : t.cpu.ir = s.cpu.ir
  inte : t.cpu.inte = s.cpu.inte
  iff : t.cpu.iff = (s.cpu.iff || (I8080.raised irq n && s.cpu.inte))
  eiPending : t.cpu.eiPending = s.cpu.eiPending

theorem iff_of_latched {irq : Bool} {s t : Sys σ} (h : t.cpu.iff = true ↔ s.Latched irq) :
    t.cpu.iff = (s.cpu.iff || (irq && s.cpu.inte)) := by
  rw [Bool.eq_iff_iff, h]
  rfl

theorem finishes_executeInstruction (ports : PortFuncs σ) {fuel : Nat} {irq : Nat → Bool}
    {s t : Sys σ} {n : Nat} (hseq : s.Sequenced) (hmc : s.cpu.mc ≠ 0)
    (hrun : executeInstruction ports fuel irq s = some (t, n)) : Finishes irq s n t := by
  induction fuel generalizing irq s n with
  | zero => simp [executeInstruction] at hrun
  | succ fuel ih =>
      obtain ⟨hiff, hinte, hpending⟩ :
          ((s.executeMachineCycle ports (irq 0)).cpu.iff = true ↔ s.Latched (irq 0)) ∧ _ ∧ _ :=
        continues_step ports hmc hseq.inCycle
      have hiff := iff_of_latched hiff
      have hwired := wired_executeMachineCycle ports (irq 0) s
      have hnext : (s.executeMachineCycle ports (irq 0)).Sequenced := hseq.step ports
      have hir : (s.executeMachineCycle ports (irq 0)).cpu.ir = s.cpu.ir := by
        rw [executeMachineCycle_eq, ir_cycle, enter_of_mc_ne _ hmc]
        rfl
      rw [executeInstruction] at hrun
      split at hrun
      · rename_i hexecuted
        obtain ⟨rfl, rfl⟩ : _ ∧ _ := by simpa using hrun
        exact ⟨hnext, hexecuted, hwired, hir, hinte, by simpa [I8080.raised] using hiff, hpending⟩
      · rename_i hgoes
        obtain ⟨⟨t', n'⟩, hlater, heq⟩ := Option.map_eq_some_iff.mp hrun
        obtain ⟨rfl, rfl⟩ : t' = t ∧ n' + 1 = n := by simpa using heq
        have hrest := ih hnext (mc_ne_of_not_executed hgoes) hlater
        refine ⟨hrest.sequenced, hrest.executed, hwired.trans hrest.wired,
          hrest.ir.trans hir, hrest.inte.trans hinte, ?_, hrest.eiPending.trans hpending⟩
        rw [hrest.iff, hiff, hinte, raised_succ, Bool.or_assoc, ← Bool.and_or_distrib_right]

/-! ## Steps -/

/-- The processor between two instructions, as the one-shot machine has it. -/
def core (s : Sys σ) : I8080.Core TracedRam σ where
  state := if s.cpu.mc = 0 then s.arch else { s.arch with pc := s.cpu.pc.word + 1#16 }
  enabled := s.cpu.inte
  request := s.cpu.iff
  shadow := s.cpu.eiPending
  halted := decide (s.cpu.mc ≠ 0)

/-- The machine cycles of an instruction: a call or return that is not taken ends early. -/
def timing : I8080.Timing TracedRam σ := fun st i =>
  match i with
  | .callIf cc => if st.holds cc then 6 else 4
  | .retIf cc => if st.holds cc then 4 else 2
  | i => cyclesNeeded i

theorem timing_arch (s : Sys σ) (i : I8080.Instr) : timing s.arch i = s.cyclesRun i := by
  cases i <;> simp [timing, cyclesRun, cond_eq]

structure StepsAs (ports : PortFuncs σ) (irq : Nat → Bool) (s t : Sys σ) (n : Nat) : Prop where
  run : executeInstruction ports 6 irq s = some (t, n)
  parked : t.Parked
  fixed : t.cpu.f.Fixed
  wired : s.mem.Wired t.mem
  core : (t.core, n) = s.core.step (s.mem.env ports) timing irq

section Steps

variable (ports : PortFuncs σ) {irq : Nat → Bool} {s : Sys σ}

theorem hlt_cycle (h : s.InHlt) (irq : Bool) :
    let t := s.executeMachineCycle ports irq
    t.isInstructionExecuted = true ∧ t.cpu.f = s.cpu.f ∧ t.core =
      { s.core with
        request := s.core.latch irq
        halted := !s.core.latch irq } := by
  have hmc : (s.latchIrq irq).cpu.mc = 1 := h.2
  intro t
  have ht : t = (((s.latchIrq irq).exec ports .hlt).stepMC 2).addCC := h.step ports
  clear_value t
  rw [exec_hlt ports hmc] at ht
  cases hline : (s.cpu.iff || (irq && s.cpu.inte)) with
  | true =>
      have hiff : (s.latchIrq irq).cpu.iff = true := hline
      simp only [hiff, if_true] at ht
      subst ht
      refine ⟨?_, rfl, ?_⟩
      · simp [isInstructionExecuted, addCC, stepMC, setMC, hmc]
      · simp [core, arch, addCC, stepMC, setMC, hmc, h.2, I8080.Core.latch, hline]
        simp [latchIrq]
  | false =>
      have hiff : (s.latchIrq irq).cpu.iff = false := hline
      simp only [hiff, Bool.false_eq_true, if_false] at ht
      subst ht
      refine ⟨?_, rfl, ?_⟩
      · simp [isInstructionExecuted, addCC, stepMC, setMC]
      · simp [core, arch, addCC, stepMC, setMC, h.2, I8080.Core.latch, hline]
        simp [latchIrq]

theorem inHlt_of_parked (h : s.Parked) (hmc : s.cpu.mc ≠ 0) : s.InHlt := by
  rcases h.startable false with ⟨hzero, -⟩ | ⟨hone, hir, -⟩
  · exact absurd hzero hmc
  · exact ⟨hir, hone⟩

theorem stepsAs_of_halted (h : s.Parked) (hfixed : s.cpu.f.Fixed) (hmc : s.cpu.mc ≠ 0) :
    ∃ t, StepsAs ports irq s t 1 := by
  obtain ⟨hexecuted, hflags, hcore⟩ := hlt_cycle ports (inHlt_of_parked h hmc) (irq 0)
  refine ⟨s.executeMachineCycle ports (irq 0), ?_, ⟨h.sequenced.step ports, hexecuted⟩,
    hflags ▸ hfixed, wired_executeMachineCycle ports _ s, ?_⟩
  · simp [executeInstruction, hexecuted]
  · have hhalted : s.core.halted = true := by simpa [core] using hmc
    rw [hcore, I8080.Core.step, if_pos hhalted]

-- symbolic execution of the cycles of `RST 7`
attribute [local simp] runCycles cycle exec isInstructionExecuted stepMC setMC addCC
  latchIrq readInstrMovePC writeByte rst decSP jumpWZ sub_one_sub_one in
theorem stepsAs_of_accepts (hfixed : s.cpu.f.Fixed) (hacc : s.Accepts (irq 0)) :
    ∃ t, StepsAs ports irq s t 4 := by
  obtain ⟨hmc, hyes⟩ := accepts_iff.mp hacc
  have hrun : ∃ t, executeInstruction ports 6 irq s = some (t, 4) ∧
      t.arch = s.arch.interrupt (s.mem.env ports) ∧ t.cpu.f = s.cpu.f ∧ t.cpu.mc = 0 ∧
      t.cpu.inte = false ∧ t.cpu.iff = false ∧ t.cpu.eiPending = s.cpu.eiPending ∧
      t.cpu.hlta = false ∧ s.mem.Wired t.mem := by
    rw [executeInstruction_eq, enter_of_accept hmc hyes]
    have hdecode : decode (s.latchIrq (irq 0)).acceptInterrupt.cpu.ir = .rst 7 := rfl
    have hcycles : mCycles (s.latchIrq (irq 0)).acceptInterrupt.cpu.ir = 4 := rfl
    rw [hdecode, hcycles]
    simp [acceptInterrupt, hmc]
    refine ⟨?_, rfl, rfl⟩
    have hhigh : s.cpu.pc.word.extractLsb' 8 8 = s.cpu.pc.h := by
      rw [← ofWord_h, RegPair.ofWord_word]
    have hlow : s.cpu.pc.word.extractLsb' 0 8 = s.cpu.pc.l := by
      rw [← ofWord_l, RegPair.ofWord_word]
    simp [arch, I8080.State.interrupt, I8080.State.pushPC, I8080.State.pushBytes,
      Memory.cpuInvokesRst7, Memory.cpuWrite, Memory.getGlobalAddr, hhigh, hlow]
  obtain ⟨t, hrun, harch, hflags, hmc', hinte, hiff, hpending, hlta, hwired⟩ := hrun
  have hshadow : s.cpu.eiPending = false := hacc.2.2
  refine ⟨t, hrun, ⟨⟨?_, fun _ => hmc', by simp [hlta]⟩, ?_⟩, hflags ▸ hfixed, hwired, ?_⟩
  · rw [InCycle, hmc']
    exact (mCycles_bounds t.cpu.ir).1
  · simp [isInstructionExecuted, hmc']
  · have hlatched : s.core.latch (irq 0) = true := hacc.2.1
    have hstep : ¬s.core.halted = true := by simp [core, hmc]
    rw [I8080.Core.step, if_neg hstep, hlatched]
    simp [core, hmc, hmc', harch, hinte, hiff, hpending, hshadow]

theorem core_of_mc (hmc : s.cpu.mc = 0) :
    s.core = ⟨s.arch, s.cpu.inte, s.cpu.iff, s.cpu.eiPending, false⟩ := by
  simp [core, hmc]

theorem decode_flipFlops (op : Byte) :
    (I8080.decode op = .ei ↔ op = opcodeEi) ∧ (I8080.decode op = .di ↔ op = opcodeDi) ∧
      (I8080.decode op = .hlt ↔ op = opcodeHlt) := by
  revert op
  decide +kernel

def fetchedCycles (s : Sys σ) : Nat := timing s.arch (I8080.decode s.opcode)

theorem step_of_fetches (hmc : s.cpu.mc = 0) (hno : ¬s.Accepts (irq 0)) :
    s.core.step (s.mem.env ports) timing irq =
      ({ state := s.arch.step (s.mem.env ports)
         enabled := if s.opcode = opcodeEi then true else
          if s.opcode = opcodeDi then false else s.cpu.inte
         request := s.cpu.iff || (I8080.raised irq s.fetchedCycles && s.cpu.inte)
         shadow := decide (s.opcode = opcodeEi)
         halted := decide (s.opcode = opcodeHlt) &&
          !(s.cpu.iff || (I8080.raised irq s.fetchedCycles && s.cpu.inte)) },
        s.fetchedCycles) := by
  obtain ⟨hei, hdi, hhlt⟩ := decode_flipFlops s.opcode
  have hread : (s.mem.env ports).read s.arch.mem s.arch.pc = s.opcode := rfl
  have hnone : ¬((s.cpu.iff || (irq 0 && s.cpu.inte)) && !s.cpu.eiPending) = true := fun hyes =>
    hno (accepts_iff.mpr ⟨hmc, hyes⟩)
  rw [core_of_mc hmc, I8080.Core.step, if_neg (by simp)]
  simp only [I8080.Core.latch]
  rw [if_neg hnone]
  simp only [hread, hei, hdi, hhlt, fetchedCycles]

theorem stepsAs_of_hlt (h : s.Parked) (hfixed : s.cpu.f.Fixed) (hmc : s.cpu.mc = 0)
    (hno : ¬s.Accepts (irq 0)) (hop : s.opcode = opcodeHlt) : ∃ t, StepsAs ports irq s t 2 := by
  have hfetch : s.Fetches (irq 0) opcodeHlt := ⟨hmc, hno, hop⟩
  have hstep := step_of_fetches ports hmc hno
  have hfirst : ∃ u, s.executeMachineCycle ports (irq 0) = u ∧ u.InHlt ∧
      u.cpu.f = s.cpu.f ∧ u.cpu.hlta = s.cpu.hlta ∧ u.core =
        ⟨{ s.arch with pc := s.cpu.pc.word + 1#16 }, s.cpu.inte,
          s.cpu.iff || (irq 0 && s.cpu.inte), false, true⟩ := by
    have hnot := not_interrupted_of_fetches hfetch
    have hir : (s.latchIrq (irq 0)).fetchOpcode.cpu.ir = opcodeHlt := hop
    have hdecode : decode opcodeHlt = .hlt := rfl
    have hcycles : mCycles opcodeHlt = 2 := rfl
    refine ⟨_, rfl, ?_⟩
    rw [executeMachineCycle_eq, enter_of_fetch hmc hnot, hir, hdecode, hcycles]
    have hbyte : s.mem.getByte s.cpu.pc.word .ram = opcodeHlt := hop
    simp [InHlt, cycle, exec, hlt, hmc, fetchOpcode, readInstrMovePC, Memory.cpuReadInstr_eq,
      latchIrq, stepMC, setMC, addCC, core, arch, hbyte]
  obtain ⟨u, hcycle, hin, hflags, hhlta, hcore⟩ := hfirst
  have hfour : s.fetchedCycles = 2 := by
    rw [fetchedCycles, hop]
    rfl
  obtain ⟨hexecuted, hflags', hcore'⟩ := hlt_cycle ports hin (irq 1)
  have hseq : u.Sequenced := hcycle ▸ h.sequenced.step ports
  have hgoes : u.isInstructionExecuted = false := by
    simp [isInstructionExecuted, hin.2, hhlta, h.sequenced.not_halted hmc hno]
  refine ⟨u.executeMachineCycle ports (irq 1), ?_, ⟨hseq.step ports, hexecuted⟩,
    hflags'.trans hflags ▸ hfixed, ?_, ?_⟩
  · simp [executeInstruction, hcycle, hgoes, hexecuted]
  · exact (hcycle ▸ wired_executeMachineCycle ports (irq 0) s).trans
      (wired_executeMachineCycle ports (irq 1) u)
  · have hread : (s.mem.env ports).read s.arch.mem s.arch.pc = opcodeHlt := hop
    have hwait : s.arch.step (s.mem.env ports) = { s.arch with pc := s.cpu.pc.word + 1#16 } := by
      rw [I8080.State.step, hread]
      rfl
    have hraised : I8080.raised irq 2 = (irq 0 || irq 1) := by
      simp [I8080.raised, List.range_succ]
    rw [hstep, hfour, hcore', hcore, hop, hwait, hraised]
    simp [I8080.Core.latch, Bool.and_or_distrib_right, Bool.or_assoc, opcodeHlt, opcodeEi, opcodeDi]

structure Completed (irq : Nat → Bool) (s : Sys σ) (n : Nat) (t : Sys σ) : Prop where
  sequenced : t.Sequenced
  executed : t.isInstructionExecuted = true
  wired : s.mem.Wired t.mem
  ir : t.cpu.ir = s.opcode
  inte : t.cpu.inte = if s.opcode = opcodeEi then true else
    if s.opcode = opcodeDi then false else s.cpu.inte
  iff : t.cpu.iff = (s.cpu.iff || (I8080.raised irq n && s.cpu.inte))
  eiPending : t.cpu.eiPending = decide (s.opcode = opcodeEi)

theorem completed_of_fetches (h : s.Sequenced) (hmc : s.cpu.mc = 0) (hno : ¬s.Accepts (irq 0))
    {fuel n : Nat} {t : Sys σ} (hrun : executeInstruction ports (fuel + 1) irq s = some (t, n)) :
    Completed irq s n t := by
  have hfetch : s.Fetches (irq 0) s.opcode := ⟨hmc, hno, rfl⟩
  obtain ⟨hir, hiff, hinte, hpending⟩ := fetches_step ports hfetch
  have hiff := iff_of_latched hiff
  have hseq : (s.executeMachineCycle ports (irq 0)).Sequenced := h.step ports
  have hwired := wired_executeMachineCycle ports (irq 0) s
  rw [executeInstruction] at hrun
  split at hrun
  · rename_i hexecuted
    obtain ⟨rfl, rfl⟩ : _ ∧ _ := by simpa using hrun
    exact ⟨hseq, hexecuted, hwired, hir, hinte, by simpa [I8080.raised] using hiff, hpending⟩
  · rename_i hgoes
    obtain ⟨⟨t', n'⟩, hlater, heq⟩ := Option.map_eq_some_iff.mp hrun
    obtain ⟨rfl, rfl⟩ : t' = t ∧ n' + 1 = n := by simpa using heq
    have hrest := finishes_executeInstruction ports hseq (mc_ne_of_not_executed hgoes) hlater
    have hlong : ∀ op, mCycles op = 1 → s.opcode ≠ op := by
      rintro op hone rfl
      exact mc_ne_of_not_executed hgoes (mc_eq_zero_of_fetches ports hfetch hone)
    have hei := hlong opcodeEi rfl
    have hdi := hlong opcodeDi rfl
    rw [if_neg hei, if_neg hdi] at hinte
    refine ⟨hrest.sequenced, hrest.executed, hwired.trans hrest.wired, hrest.ir.trans hir, ?_, ?_,
      hrest.eiPending.trans hpending⟩
    · rw [hrest.inte, hinte, if_neg hei, if_neg hdi]
    · rw [hrest.iff, hiff, hinte, raised_succ, Bool.or_assoc, ← Bool.and_or_distrib_right]

theorem stepsAs_of_fetches (h : s.Parked) (hfixed : s.cpu.f.Fixed) (hmc : s.cpu.mc = 0)
    (hno : ¬s.Accepts (irq 0)) (hhlt : s.opcode ≠ opcodeHlt) (hmov : s.opcode ≠ opcodeMovML) :
    ∃ t, StepsAs ports irq s t s.fetchedCycles := by
  have hfetch : s.Fetches (irq 0) s.opcode := ⟨hmc, hno, rfl⟩
  have hboundary : s.AtBoundary := ⟨hmc, h.sequenced.not_halted hmc hno, hfixed⟩
  obtain ⟨t, hrun, harch, hflags⟩ := matches_of_ne_movML ports hboundary
    (not_interrupted_of_fetches hfetch) hhlt hmov
  obtain ⟨henc, hcycles⟩ := mCycles_eq s.opcode hhlt
  have hlen : s.expectedCycles = s.fetchedCycles := by
    rw [expectedCycles_eq (decode_eq s.opcode) (hcycles hmov), fetchedCycles, timing_arch]
  have hrun := hrun 0
  rw [hlen] at hrun
  have hdone : Completed irq s s.fetchedCycles t :=
    completed_of_fetches ports h.sequenced hmc hno hrun
  have hmc' : t.cpu.mc = 0 := by
    have hend : t.cpu.mc = 0 ∨ t.cpu.hlta = true := by
      simpa [isInstructionExecuted] using hdone.executed
    refine hend.resolve_right fun hhalt => hhlt ?_
    rw [← hdone.ir]
    exact (hdone.sequenced.halted hhalt).1
  refine ⟨t, hrun, ⟨hdone.sequenced, hdone.executed⟩, hflags, hdone.wired, ?_⟩
  rw [step_of_fetches ports hmc hno, core_of_mc hmc', harch, hdone.inte, hdone.iff,
    hdone.eiPending]
  simp [hhlt]

theorem fetched_core (hmc : s.cpu.mc = 0) (hno : ¬s.Accepts (irq 0)) :
    s.core.fetched (s.mem.env ports) irq = some s.opcode := by
  have hnone : ((s.cpu.iff || (irq 0 && s.cpu.inte)) && !s.cpu.eiPending) = false := by
    rw [Bool.eq_false_iff]
    exact fun hyes => hno (accepts_iff.mpr ⟨hmc, hyes⟩)
  rw [core_of_mc hmc, I8080.Core.fetched]
  simp only [I8080.Core.latch, hnone]
  rfl

theorem stepsAs (h : s.Parked) (hfixed : s.cpu.f.Fixed)
    (hmov : s.core.fetched (s.mem.env ports) irq ≠ some opcodeMovML) :
    ∃ t n, StepsAs ports irq s t n := by
  by_cases hmc : s.cpu.mc = 0
  · by_cases hacc : s.Accepts (irq 0)
    · obtain ⟨t, ht⟩ := stepsAs_of_accepts ports hfixed hacc
      exact ⟨t, _, ht⟩
    · rw [fetched_core ports hmc hacc, Ne, Option.some_inj] at hmov
      by_cases hhlt : s.opcode = opcodeHlt
      · obtain ⟨t, ht⟩ := stepsAs_of_hlt ports h hfixed hmc hacc hhlt
        exact ⟨t, _, ht⟩
      · obtain ⟨t, ht⟩ := stepsAs_of_fetches ports h hfixed hmc hacc hhlt hmov
        exact ⟨t, _, ht⟩
  · obtain ⟨t, ht⟩ := stepsAs_of_halted ports h hfixed hmc
    exact ⟨t, _, ht⟩

end Steps

/-! ## Runs -/

/-- Executes `n` instructions, and counts the machine cycles. -/
def executeInstructions (ports : PortFuncs σ) : Nat → (Nat → Bool) → Sys σ → Option (Sys σ × Nat)
  | 0, _, s => some (s, 0)
  | n + 1, irq, s => do
      let (s, cycles) ← executeInstruction ports 6 irq s
      let (s, later) ← executeInstructions ports n (fun k => irq (cycles + k)) s
      return (s, cycles + later)

/--
Over a run of any length, with requests at any time, the processor is the one-shot machine
with its interrupts, in its state and in the machine cycles that it takes, as long as that
machine comes to no `MOV M,L`.
-/
theorem executeInstructions_refines (ports : PortFuncs σ) {s : Sys σ} (hparked : s.Parked)
    (hfixed : s.cpu.f.Fixed) (n : Nat) (irq : Nat → Bool)
    (hmov : s.core.Avoids (s.mem.env ports) timing opcodeMovML n irq) :
    ∃ t cycles, executeInstructions ports n irq s = some (t, cycles) ∧
      (t.core, cycles) = s.core.run (s.mem.env ports) timing n irq ∧ t.Parked := by
  suffices hrun : ∃ t cycles, executeInstructions ports n irq s = some (t, cycles) ∧
      (t.core, cycles) = s.core.run (s.mem.env ports) timing n irq ∧ t.Parked ∧
      t.cpu.f.Fixed ∧ s.mem.Wired t.mem by
    obtain ⟨t, cycles, hrun, hcore, hend, -, -⟩ := hrun
    exact ⟨t, cycles, hrun, hcore, hend⟩
  induction n generalizing irq s with
  | zero => exact ⟨s, 0, rfl, rfl, hparked, hfixed, .refl s.mem⟩
  | succ n ih =>
      obtain ⟨hfirst, hlater⟩ := hmov
      obtain ⟨u, cycles, hstep⟩ := stepsAs ports hparked hfixed hfirst
      have henv := hstep.wired.env ports
      rw [← hstep.core, ← henv] at hlater
      obtain ⟨t, later, hrun, hcore, hend, hflags, hwired⟩ :=
        ih hstep.parked hstep.fixed _ hlater
      refine ⟨t, cycles + later, ?_, ?_, hend, hflags, hstep.wired.trans hwired⟩
      · simp [executeInstructions, hstep.run, hrun]
      · rw [I8080.Core.run, ← hstep.core]
        rw [henv] at hcore
        simp only [← hcore]

/-- A witness: after a reset `EI`, `NOP` and the interrupt that has been waiting. -/
theorem executeInstructions_refines_ei :
    let s : Sys Unit := .ofReset (.ofRam fun k => if k.val = 0 then opcodeEi else 0) ()
    let ports : PortFuncs Unit := ⟨fun _ io => (0, io), fun _ _ io => io⟩
    ∃ t cycles, executeInstructions ports 3 (fun _ => true) s = some (t, cycles) ∧
      (t.core, cycles) = s.core.run (s.mem.env ports) timing 3 (fun _ => true) ∧ t.Parked := by
  intro s ports
  exact executeInstructions_refines ports (parked_ofReset _ _) (by decide) 3 _
    ⟨by decide, by decide, by decide, trivial⟩

end Sys

end V6Emul
