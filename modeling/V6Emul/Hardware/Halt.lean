import V6Emul.Cpu.Boundary
import V6Emul.Hardware.Model

/-!
# Waiting in `HLT`

A run of machine cycles between which the rest of the machine may remap the memory,
serve the ports and raise requests.  A processor that waits repeats the second cycle
of its `HLT`, and leaves it through `RST 7`.
-/

namespace V6Emul

/-- One machine cycle: the request line in it and what the devices do before it. -/
structure Turn (σ : Type) where
  irq : Bool
  devices : Memory → σ → Memory × σ

namespace Sys

variable {σ : Type}

def meet (s : Sys σ) (t : Turn σ) : Sys σ :=
  { s with mem := (t.devices s.mem s.io).1, io := (t.devices s.mem s.io).2 }

def turn (ports : PortFuncs σ) (t : Turn σ) (s : Sys σ) : Sys σ :=
  (s.meet t).executeMachineCycle ports t.irq

@[simp] theorem cpu_meet (s : Sys σ) (t : Turn σ) : (s.meet t).cpu = s.cpu := rfl

theorem Sequenced.meet {s : Sys σ} (h : s.Sequenced) (t : Turn σ) : (s.meet t).Sequenced :=
  ⟨h.inCycle, h.pending, h.halted⟩

/-! ## The cycles of `HLT` and of `RST 7` -/

section Cycles

variable (ports : PortFuncs σ) {irq : Bool} {s : Sys σ}

def InHlt (s : Sys σ) : Prop := s.cpu.ir = opcodeHlt ∧ s.cpu.mc = 1

theorem not_latched (h : ¬s.Latched irq) :
    s.cpu.iff = false ∧ (s.cpu.iff || (irq && s.cpu.inte)) = false := by
  have hline : (s.cpu.iff || (irq && s.cpu.inte)) = false := Bool.eq_false_iff.mpr h
  exact ⟨(Bool.or_eq_false_iff.mp hline).1, hline⟩

theorem exec_hlt (h : s.cpu.mc = 1) :
    s.exec ports .hlt =
      { s with
        mem := s.mem.afterReadInstr s.cpu.pc.word .ram 0
        cpu := if s.cpu.iff then { s.cpu with pc := .ofWord (s.cpu.pc.word + 1) }
          else { s.cpu with hlta := true, mc := 0 } } := by
  have hone : s.cpu.mc.toNat = 1 := by
    rw [h]
    rfl
  have hzero : s.cpu.mc - 1 = 0 := by
    rw [h]
    rfl
  have hpc : RegPair.ofWord (s.cpu.pc.word + 1#16 - 1#16) = s.cpu.pc := by
    rw [BitVec.add_sub_cancel, RegPair.ofWord_word]
  simp only [exec, hlt, hone, readInstrMovePC, Memory.cpuReadInstr_eq, RegPair.word_ofWord, hzero,
    hpc]
  split <;> rfl

theorem InHlt.step (h : s.InHlt) :
    s.executeMachineCycle ports irq =
      (((s.latchIrq irq).exec ports .hlt).stepMC (mCycles opcodeHlt)).addCC := by
  obtain ⟨hir, hmc⟩ := h
  have hne : s.cpu.mc ≠ 0 := by
    rw [hmc]
    decide
  have henter : (s.latchIrq irq).cpu.ir = opcodeHlt := hir
  rw [executeMachineCycle_eq, enter_of_mc_ne irq hne, henter]
  rfl

theorem InHlt.wait (h : s.InHlt) (hno : ¬s.Latched irq) :
    (s.executeMachineCycle ports irq).cpu =
        { s.cpu with hlta := true, cc := s.cpu.cc + 4 } ∧
      (s.executeMachineCycle ports irq).mem.ram = s.mem.ram := by
  obtain ⟨hiff, hline⟩ := not_latched hno
  have hlatch : s.latchIrq irq = s := by
    rw [latchIrq, hline, ← hiff]
  have hmc : ({ s.cpu with mc := 1 } : CpuState) = s.cpu := by rw [← h.2]
  rw [h.step ports, hlatch, exec_hlt ports h.2]
  simp only [hiff, Bool.false_eq_true, if_false]
  refine ⟨?_, rfl⟩
  rw [← hmc]
  rfl

theorem InHlt.wake (h : s.InHlt) (hlatched : s.Latched irq) :
    (s.executeMachineCycle ports irq).cpu =
        { s.cpu with
          iff := true, mc := 0, pc := .ofWord (s.cpu.pc.word + 1), cc := s.cpu.cc + 4 } ∧
      (s.executeMachineCycle ports irq).mem.ram = s.mem.ram := by
  have hcpu : (s.latchIrq irq).cpu = { s.cpu with iff := true } := by
    rw [← show (s.cpu.iff || (irq && s.cpu.inte)) = true from hlatched]
    rfl
  have hmc : (s.latchIrq irq).cpu.mc = 1 := h.2
  rw [h.step ports, exec_hlt ports hmc]
  simp only [hcpu, if_true]
  refine ⟨?_, rfl⟩
  simp only [addCC, stepMC, setMC, h.2]
  rfl

theorem accepts_cycle (h : s.Accepts irq) :
    (s.executeMachineCycle ports irq).cpu =
        { s.cpu with
          ir := opcodeRst7, mc := 1, sp := .ofWord (s.cpu.sp.word - 1), inte := false,
          iff := false, hlta := false, cc := s.cpu.cc + 4 } ∧
      (s.executeMachineCycle ports irq).mem.ram = s.mem.ram := by
  obtain ⟨hmc, hyes⟩ := accepts_iff.mp h
  have hzero : (s.latchIrq irq).acceptInterrupt.cpu.mc.toNat = 0 := by
    change s.cpu.mc.toNat = 0
    rw [hmc]
    rfl
  rw [executeMachineCycle_eq, enter_of_accept hmc hyes]
  have hdecode : decode (s.latchIrq irq).acceptInterrupt.cpu.ir = .rst 7 := rfl
  rw [hdecode]
  simp only [cycle, exec, rst, hzero]
  refine ⟨?_, rfl⟩
  simp only [addCC, stepMC, setMC, decSP]
  rw [show (s.latchIrq irq).acceptInterrupt.cpu.mc = 0 from hmc]
  rfl

theorem pc_fetches_hlt (h : s.Fetches irq opcodeHlt) :
    (s.executeMachineCycle ports irq).cpu.pc = s.cpu.pc := by
  have hno := not_interrupted_of_fetches h
  obtain ⟨hmc, -, hop⟩ := h
  have henter : (s.latchIrq irq).fetchOpcode.cpu.ir = opcodeHlt := hop
  have hzero : (s.latchIrq irq).fetchOpcode.cpu.mc.toNat = 0 := by
    change s.cpu.mc.toNat = 0
    simp [hmc]
  have hdecode : decode opcodeHlt = .hlt := rfl
  have hback : RegPair.ofWord (s.cpu.pc.word + 1#16 - 1#16) = s.cpu.pc := by
    rw [BitVec.add_sub_cancel, RegPair.ofWord_word]
  rw [executeMachineCycle_eq, enter_of_fetch hmc hno, henter, hdecode]
  simp only [cycle, exec, hlt, hzero]
  change RegPair.ofWord ((RegPair.ofWord (s.cpu.pc.word + 1#16)).word - 1#16) = s.cpu.pc
  rw [RegPair.word_ofWord]
  exact hback

theorem rst7_cycle (hir : s.cpu.ir = opcodeRst7) (hmc : s.cpu.mc ≠ 0) (hinte : s.cpu.inte = false) :
    s.executeMachineCycle ports irq = ((s.rst 7).stepMC (mCycles opcodeRst7)).addCC := by
  have hlatch : s.latchIrq irq = s := by
    rw [latchIrq, hinte, Bool.and_false, Bool.or_false]
  rw [executeMachineCycle_eq, enter_of_mc_ne irq hmc, hlatch, hir]
  rfl

theorem rst7_high (hir : s.cpu.ir = opcodeRst7) (hmc : s.cpu.mc = 1) (hinte : s.cpu.inte = false) :
    (s.executeMachineCycle ports irq).cpu =
        { s.cpu with mc := 2, sp := .ofWord (s.cpu.sp.word - 1), cc := s.cpu.cc + 4 } ∧
      (s.executeMachineCycle ports irq).mem.ram =
        s.mem.ram.write (s.mem.getGlobalAddr s.cpu.sp.word .stack) s.cpu.pc.h := by
  have hne : s.cpu.mc ≠ 0 := by simp [hmc]
  have hone : s.cpu.mc.toNat = 1 := by simp [hmc]
  rw [rst7_cycle ports hir hne hinte]
  simp only [rst, hone]
  refine ⟨?_, rfl⟩
  simp only [addCC, stepMC, setMC, decSP, writeByte, hmc]
  rfl

theorem rst7_low (hir : s.cpu.ir = opcodeRst7) (hmc : s.cpu.mc = 2) (hinte : s.cpu.inte = false) :
    (s.executeMachineCycle ports irq).cpu =
        { s.cpu with mc := 3, wz := .ofWord 0x38, cc := s.cpu.cc + 4 } ∧
      (s.executeMachineCycle ports irq).mem.ram =
        s.mem.ram.write (s.mem.getGlobalAddr s.cpu.sp.word .stack) s.cpu.pc.l := by
  have hne : s.cpu.mc ≠ 0 := by simp [hmc]
  have htwo : s.cpu.mc.toNat = 2 := by simp [hmc]
  rw [rst7_cycle ports hir hne hinte]
  simp only [rst, htwo]
  refine ⟨?_, rfl⟩
  simp only [addCC, stepMC, setMC, writeByte, hmc]
  rfl

theorem rst7_jump (hir : s.cpu.ir = opcodeRst7) (hmc : s.cpu.mc = 3) (hinte : s.cpu.inte = false) :
    (s.executeMachineCycle ports irq).cpu =
        { s.cpu with mc := 0, pc := s.cpu.wz, cc := s.cpu.cc + 4 } ∧
      (s.executeMachineCycle ports irq).mem.ram = s.mem.ram := by
  have hne : s.cpu.mc ≠ 0 := by simp [hmc]
  have hthree : s.cpu.mc.toNat = 3 := by simp [hmc]
  rw [rst7_cycle ports hir hne hinte]
  simp only [rst, hthree]
  refine ⟨?_, rfl⟩
  simp only [addCC, stepMC, setMC, jumpWZ, hmc]
  rfl

def cyclesLeft (s : Sys σ) : Nat := if s.cpu.mc = 0 then 6 else mCycles s.cpu.ir - s.cpu.mc.toNat

theorem cyclesLeft_pos (h : s.InCycle) : 0 < s.cyclesLeft := by
  have hlt : s.cpu.mc.toNat < mCycles s.cpu.ir := h
  unfold cyclesLeft
  split <;> omega

theorem cyclesLeft_le (s : Sys σ) : s.cyclesLeft ≤ 6 := by
  have hle := (mCycles_bounds s.cpu.ir).2
  unfold cyclesLeft
  split <;> omega

theorem cyclesLeft_step (h : s.InCycle)
    (hnot : ¬(s.executeMachineCycle ports irq).isInstructionExecuted = true) :
    (s.executeMachineCycle ports irq).cyclesLeft < s.cyclesLeft := by
  have hne := mc_ne_of_not_executed hnot
  have hin : (s.executeMachineCycle ports irq).cpu.mc.toNat <
    mCycles (s.executeMachineCycle ports irq).cpu.ir := inCycle_executeMachineCycle ports irq s
  have hpos : (s.executeMachineCycle ports irq).cpu.mc.toNat ≠ 0 := mc_toNat_ne hne
  have hle := (mCycles_bounds (s.executeMachineCycle ports irq).cpu.ir).2
  rw [cyclesLeft, if_neg hne]
  by_cases hmc : s.cpu.mc = 0
  · rw [cyclesLeft, if_pos hmc]
    omega
  · have hlt : (s.latchIrq irq).cpu.mc.toNat < mCycles (s.latchIrq irq).cpu.ir := h
    rw [cyclesLeft, if_neg hmc]
    rw [executeMachineCycle_eq, enter_of_mc_ne irq hmc] at hnot hne hin ⊢
    rw [ir_cycle] at hin ⊢
    rcases mc_cycle ports _ hlt with hzero | ⟨hnext, -⟩ | ⟨-, hhalt⟩
    · exact absurd hzero hne
    · change mCycles s.cpu.ir - _ < _
      have hnext' : _ = s.cpu.mc.toNat + 1 := hnext
      have hlt' : s.cpu.mc.toNat < mCycles s.cpu.ir := h
      omega
    · exact absurd (by simp [isInstructionExecuted, hhalt]) hnot

end Cycles

/-! ## Runs -/

section Runs

variable (ports : PortFuncs σ) (turns : Nat → Turn σ) (start : Sys σ)

def beforeTurn : Nat → Sys σ := Runs.after (turn ports) turns start

def met (n : Nat) : Sys σ := (beforeTurn ports turns start n).meet (turns n)

theorem beforeTurn_succ (n : Nat) : beforeTurn ports turns start (n + 1) =
    (met ports turns start n).executeMachineCycle ports (turns n).irq := rfl

/-- Since the fetch in turn `m` the processor has been waiting in the `HLT` at that address. -/
structure HltSince (m n : Nat) : Prop where
  lt : m < n
  fetches : (met ports turns start m).Fetches (turns m).irq opcodeHlt
  waits : ∀ k, m < k → k ≤ n → (beforeTurn ports turns start k).InHlt ∧
    (beforeTurn ports turns start k).cpu.pc = (beforeTurn ports turns start m).cpu.pc

structure Restarts (n : Nat) (ret : Addr) : Prop where
  accepts : (met ports turns start n).Accepts (turns n).irq
  executes : ∀ k, 0 < k → k < 4 → (beforeTurn ports turns start (n + k)).cpu.ir = opcodeRst7 ∧
    (beforeTurn ports turns start (n + k)).cpu.mc = BitVec.ofNat 4 k
  executed : (beforeTurn ports turns start (n + 4)).cpu.mc = 0
  pushesHigh : (beforeTurn ports turns start (n + 2)).mem.ram =
    (met ports turns start (n + 1)).mem.ram.write ((met ports turns start (n + 1)).mem.getGlobalAddr
      ((beforeTurn ports turns start n).cpu.sp.word - 1) .stack) (RegPair.ofWord ret).h
  pushesLow : (beforeTurn ports turns start (n + 3)).mem.ram =
    (met ports turns start (n + 2)).mem.ram.write ((met ports turns start (n + 2)).mem.getGlobalAddr
      ((beforeTurn ports turns start n).cpu.sp.word - 1 - 1) .stack) (RegPair.ofWord ret).l
  stack : (beforeTurn ports turns start (n + 4)).cpu.sp.word =
    (beforeTurn ports turns start n).cpu.sp.word - 1 - 1
  vector : (beforeTurn ports turns start (n + 4)).cpu.pc.word = 0x38

theorem cpu_met (n : Nat) :
    (met ports turns start n).cpu = (beforeTurn ports turns start n).cpu := rfl

theorem restarts_of_accepts {n : Nat} (h : (met ports turns start n).Accepts (turns n).irq) :
    Restarts ports turns start n (beforeTurn ports turns start n).cpu.pc.word := by
  have hfirst : (beforeTurn ports turns start (n + 1)).cpu = _ := (accepts_cycle ports h).1
  rw [cpu_met] at hfirst
  obtain ⟨hhigh, hpushHigh⟩ := @rst7_high _ ports (turns (n + 1)).irq
    (met ports turns start (n + 1)) (by rw [cpu_met, hfirst]) (by rw [cpu_met, hfirst])
    (by rw [cpu_met, hfirst])
  rw [← beforeTurn_succ] at hhigh hpushHigh
  rw [cpu_met, hfirst] at hhigh hpushHigh
  obtain ⟨hlow, hpushLow⟩ := @rst7_low _ ports (turns (n + 2)).irq
    (met ports turns start (n + 2)) (by rw [cpu_met, hhigh]) (by rw [cpu_met, hhigh])
    (by rw [cpu_met, hhigh])
  rw [← beforeTurn_succ] at hlow hpushLow
  rw [cpu_met, hhigh] at hlow hpushLow
  obtain ⟨hjump, -⟩ := @rst7_jump _ ports (turns (n + 3)).irq
    (met ports turns start (n + 3)) (by rw [cpu_met, hlow]) (by rw [cpu_met, hlow])
    (by rw [cpu_met, hlow])
  rw [← beforeTurn_succ, cpu_met, hlow] at hjump
  refine ⟨h, ?_, ?_, ?_, ?_, ?_, ?_⟩
  · intro k hpos hlt
    obtain rfl | rfl | rfl : k = 1 ∨ k = 2 ∨ k = 3 := by omega
    · rw [hfirst]
      exact ⟨rfl, rfl⟩
    · rw [hhigh]
      exact ⟨rfl, rfl⟩
    · rw [hlow]
      exact ⟨rfl, rfl⟩
  · rw [hjump]
  · rw [hpushHigh, RegPair.word_ofWord, RegPair.ofWord_word]
  · rw [hpushLow, RegPair.word_ofWord, RegPair.word_ofWord, RegPair.ofWord_word]
  · rw [hjump, RegPair.word_ofWord, RegPair.word_ofWord]
  · rw [hjump]
    exact RegPair.word_ofWord _

theorem sequenced_beforeTurn (h : start.Sequenced) (n : Nat) :
    (beforeTurn ports turns start n).Sequenced :=
  Runs.after_invariant Sequenced h (fun n hn => (hn.meet (turns n)).step ports) n

theorem exists_executed (h : start.Sequenced) (n : Nat) :
    ∃ k, 1 ≤ k ∧ k ≤ (beforeTurn ports turns start n).cyclesLeft ∧
      (beforeTurn ports turns start (n + k)).isInstructionExecuted = true := by
  induction hleft : (beforeTurn ports turns start n).cyclesLeft using Nat.strongRecOn
    generalizing n with
  | ind left ih =>
      have hin := (sequenced_beforeTurn ports turns start h n).inCycle
      have hpos := cyclesLeft_pos hin
      by_cases hexecuted : (beforeTurn ports turns start (n + 1)).isInstructionExecuted = true
      · exact ⟨1, Nat.le_refl 1, by omega, hexecuted⟩
      · have hlt : (beforeTurn ports turns start (n + 1)).cyclesLeft <
            (beforeTurn ports turns start n).cyclesLeft :=
          @cyclesLeft_step _ ports _ (met ports turns start n) hin hexecuted
        obtain ⟨k, -, hle, hk⟩ := ih _ (hleft ▸ hlt) (n + 1) rfl
        refine ⟨k + 1, by omega, by omega, ?_⟩
        rwa [Nat.add_assoc, Nat.add_comm 1 k] at hk

theorem exists_hltSince (h : start.Sequenced) (hstart : ¬start.InHlt) {n : Nat}
    (hwaits : (beforeTurn ports turns start n).InHlt) : ∃ m, HltSince ports turns start m n := by
  induction n with
  | zero => exact absurd hwaits hstart
  | succ n ih =>
      have hin := (sequenced_beforeTurn ports turns start h n).inCycle
      obtain ⟨hir, hmc⟩ := hwaits
      by_cases hzero : (met ports turns start n).cpu.mc = 0
      · by_cases haccepts : (met ports turns start n).Accepts (turns n).irq
        · have hrst := ((restarts_of_accepts ports turns start haccepts).executes 1
            Nat.one_pos (by decide)).1
          rw [hir] at hrst
          exact absurd hrst (by decide)
        · have hfetch : (met ports turns start n).Fetches (turns n).irq _ := ⟨hzero, haccepts, rfl⟩
          have hop : (beforeTurn ports turns start (n + 1)).cpu.ir = _ :=
            (fetches_step ports hfetch).1
          rw [← hop, hir] at hfetch
          refine ⟨n, Nat.lt_succ_self n, hfetch, ?_⟩
          intro k hlt hle
          obtain rfl : k = n + 1 := Nat.le_antisymm hle hlt
          exact ⟨⟨hir, hmc⟩, pc_fetches_hlt ports hfetch⟩
      · have hsame : (beforeTurn ports turns start (n + 1)).cpu.ir =
            (beforeTurn ports turns start n).cpu.ir := by
          rw [beforeTurn_succ, executeMachineCycle_eq, enter_of_mc_ne _ hzero, ir_cycle]
          rfl
        have hhlt := hsame.symm.trans hir
        have hlt : (beforeTurn ports turns start n).cpu.mc.toNat < mCycles _ := hin
        have hpos : (beforeTurn ports turns start n).cpu.mc.toNat ≠ 0 := mc_toNat_ne hzero
        rw [hhlt, show mCycles opcodeHlt = 2 from rfl] at hlt
        have hwaits : (met ports turns start n).InHlt := by
          refine ⟨hhlt, BitVec.eq_of_toNat_eq ?_⟩
          change (beforeTurn ports turns start n).cpu.mc.toNat = 1
          omega
        by_cases hlatched : (met ports turns start n).Latched (turns n).irq
        · have hwoken := (hwaits.wake ports hlatched).1
          rw [← beforeTurn_succ] at hwoken
          rw [hwoken] at hmc
          have hone : (0 : BitVec 4) = 1 := hmc
          exact absurd hone (by decide)
        · obtain ⟨m, hm⟩ := ih hwaits
          have hwait := (hwaits.wait ports hlatched).1
          rw [← beforeTurn_succ] at hwait
          refine ⟨m, Nat.lt_succ_of_lt hm.lt, hm.fetches, ?_⟩
          intro k hlt hle
          rcases Nat.lt_or_eq_of_le hle with hbefore | rfl
          · exact hm.waits k hlt (Nat.le_of_lt_succ hbefore)
          · refine ⟨⟨hir, hmc⟩, ?_⟩
            rw [hwait]
            exact (hm.waits n hm.lt (Nat.le_refl n)).2

end Runs

/--
After a reset, in every run: `MC` names a cycle of `IR`, `HLTA` means `HLT`, an
instruction ends within six cycles, a `HLT` waits at its address without a request
and gives way to `RST 7` with one.
-/
theorem halt_runs (ports : PortFuncs σ) (turns : Nat → Turn σ) (mem : Memory) (io : σ) (n : Nat) :
    (beforeTurn ports turns (ofReset mem io) n).InCycle ∧
    ((beforeTurn ports turns (ofReset mem io) n).cpu.hlta = true →
      (beforeTurn ports turns (ofReset mem io) n).cpu.ir = opcodeHlt) ∧
    (∃ k, 1 ≤ k ∧ k ≤ 6 ∧
      (beforeTurn ports turns (ofReset mem io) (n + k)).isInstructionExecuted = true) ∧
    ((beforeTurn ports turns (ofReset mem io) n).cpu.hlta = true →
      ¬(beforeTurn ports turns (ofReset mem io) n).Latched (turns n).irq →
      (∃ m, HltSince ports turns (ofReset mem io) m n) ∧
      (beforeTurn ports turns (ofReset mem io) (n + 1)).cpu =
        { (beforeTurn ports turns (ofReset mem io) n).cpu with
          cc := (beforeTurn ports turns (ofReset mem io) n).cpu.cc + 4 } ∧
      (beforeTurn ports turns (ofReset mem io) (n + 1)).mem.ram =
        (met ports turns (ofReset mem io) n).mem.ram) ∧
    ((beforeTurn ports turns (ofReset mem io) n).InHlt →
      (beforeTurn ports turns (ofReset mem io) n).Latched (turns n).irq →
      ∃ m, HltSince ports turns (ofReset mem io) m n ∧
        Restarts ports turns (ofReset mem io) (n + 1)
          ((beforeTurn ports turns (ofReset mem io) m).cpu.pc.word + 1)) := by
  have hreset := sequenced_ofReset mem io
  have hbefore := sequenced_beforeTurn ports turns _ hreset n
  have hstart : ¬(ofReset mem io).InHlt := fun h => absurd h.1 (by decide : (0 : Byte) ≠ opcodeHlt)
  refine ⟨hbefore.inCycle, fun hhalt => (hbefore.halted hhalt).1, ?_, ?_, ?_⟩
  · obtain ⟨k, hpos, hle, hexecuted⟩ := exists_executed ports turns _ hreset n
    exact ⟨k, hpos, hle.trans (cyclesLeft_le _), hexecuted⟩
  · intro hhalt hno
    obtain ⟨hir, -, hmc | hiff⟩ := hbefore.halted hhalt
    · have hwaits : (met ports turns (ofReset mem io) n).InHlt := ⟨hir, hmc⟩
      obtain ⟨hcpu, hram⟩ := hwaits.wait ports hno
      refine ⟨exists_hltSince ports turns _ hreset hstart hwaits, ?_, hram⟩
      rw [beforeTurn_succ, hcpu, cpu_met, ← hhalt]
    · exact absurd (not_latched hno).1 (by simp [hiff])
  · intro hwaits hlatched
    obtain ⟨m, hm⟩ := exists_hltSince ports turns _ hreset hstart hwaits
    have hmet : (met ports turns (ofReset mem io) n).InHlt := hwaits
    obtain ⟨hcpu, -⟩ := hmet.wake ports hlatched
    rw [← beforeTurn_succ, cpu_met] at hcpu
    have haccepts : (met ports turns (ofReset mem io) (n + 1)).Accepts (turns (n + 1)).irq := by
      refine ⟨by rw [cpu_met, hcpu], ?_, ?_⟩
      · change (_ || _) = true
        rw [cpu_met, hcpu, Bool.true_or]
      · rw [cpu_met, hcpu]
        have hone : (beforeTurn ports turns (ofReset mem io) n).cpu.mc = 1 := hwaits.2
        refine Bool.eq_false_iff.mpr fun hpending => ?_
        rw [hbefore.pending hpending] at hone
        exact absurd hone (by decide)
    have hrestarts := restarts_of_accepts ports turns _ haccepts
    rw [hcpu, RegPair.word_ofWord, (hm.waits n hm.lt (Nat.le_refl n)).2] at hrestarts
    exact ⟨m, hm, hrestarts⟩

end Sys

/-! ## The hardware -/

namespace Hardware

variable {δ : Type} (dev : Devices δ)

def turnOf (h : Hardware δ) : Turn (Io δ) where
  irq := (h.rasterize dev).display.update.irq
  devices _ _ := ((h.rasterize dev).mem, (h.rasterize dev).io.log .cycle)

theorem beforeTurn_turnOf (h : Hardware δ) (n : Nat) :
    ((machineCycle dev)^[n] h).cpu =
        (Sys.beforeTurn (Io.ports dev) (fun k => ((machineCycle dev)^[k] h).turnOf dev)
          h.toSys n).cpu ∧
      ((machineCycle dev)^[n] h).mem =
        (Sys.beforeTurn (Io.ports dev) (fun k => ((machineCycle dev)^[k] h).turnOf dev)
          h.toSys n).mem ∧
      ((machineCycle dev)^[n] h).stores =
        (Sys.beforeTurn (Io.ports dev) (fun k => ((machineCycle dev)^[k] h).turnOf dev)
          h.toSys n).stores := by
  induction n with
  | zero => exact ⟨rfl, rfl, rfl⟩
  | succ n ih =>
      obtain ⟨hcpu, -, hstores⟩ := ih
      have hmet : Sys.met (Io.ports dev) (fun k => ((machineCycle dev)^[k] h).turnOf dev)
          h.toSys n = { (((machineCycle dev)^[n] h).rasterize dev).toSys with
            io := (((machineCycle dev)^[n] h).rasterize dev).io.log .cycle } := by
        rw [Sys.met, Sys.meet, ← hcpu, ← hstores]
        rfl
      rw [Function.iterate_succ_apply', Sys.beforeTurn_succ, hmet]
      exact ⟨rfl, rfl, rfl⟩

end Hardware

end V6Emul
