import V6Emul.Cpu.Control
import V6Emul.Cpu.Arithmetic

/-!
# The machine cycles refine the one-shot semantics

The temporaries, the cycle counter and the clock are forgotten by `Sys.arch`.
For every instruction the cycles of its helper, run from an instruction
boundary, end in the architectural state that `I8080.State.exec` computes at
once.
-/

namespace V6Emul

variable {σ : Type}

/-! ## The architectural view -/

structure TracedRam where
  ram : Ram
  stores : List Store

def TracedRam.store (r : TracedRam) (globalAddr : Nat) (value : Byte) : TracedRam :=
  ⟨r.ram.write globalAddr value, r.stores ++ [⟨globalAddr, value, r.ram.read globalAddr⟩]⟩

def Sys.arch (s : Sys σ) : I8080.State TracedRam σ where
  a := s.cpu.a
  f := s.cpu.f.arch
  b := s.cpu.bc.h
  c := s.cpu.bc.l
  d := s.cpu.de.h
  e := s.cpu.de.l
  h := s.cpu.hl.h
  l := s.cpu.hl.l
  sp := s.cpu.sp.word
  pc := s.cpu.pc.word
  mem := ⟨s.mem.ram, s.stores⟩
  io := s.io

/--
Memory and ports as the reference sees them: the ROM overlay and the mapping
are part of the read and write functions.
-/
def Memory.env (m : Memory) (ports : PortFuncs σ) : I8080.Env TracedRam σ where
  read r addr := { m with ram := r.ram }.getByte addr .ram
  write r addr v := r.store (m.getGlobalAddr addr .ram) v
  readStack r addr := { m with ram := r.ram }.getByte addr .stack
  writeStack r addr v := r.store (m.getGlobalAddr addr .stack) v
  input := ports.input
  output := ports.output

section Env

variable (m : Memory) (ports : PortFuncs σ) (ram : Ram) (stores : List Store) (addr : Addr)
  (v : Byte)

@[simp] theorem Memory.env_read :
    (m.env ports).read ⟨m.ram, stores⟩ addr = m.getByte addr .ram := rfl

@[simp] theorem Memory.env_readStack :
    (m.env ports).readStack ⟨m.ram, stores⟩ addr = m.getByte addr .stack := rfl

@[simp] theorem Memory.env_write :
    (m.env ports).write ⟨ram, stores⟩ addr v =
      ⟨ram.write (m.getGlobalAddr addr .ram) v,
        stores ++ [⟨m.getGlobalAddr addr .ram, v, ram.read (m.getGlobalAddr addr .ram)⟩]⟩ := rfl

@[simp] theorem Memory.env_writeStack :
    (m.env ports).writeStack ⟨ram, stores⟩ addr v =
      ⟨ram.write (m.getGlobalAddr addr .stack) v,
        stores ++ [⟨m.getGlobalAddr addr .stack, v, ram.read (m.getGlobalAddr addr .stack)⟩]⟩ :=
  rfl

@[simp] theorem Memory.env_input : (m.env ports).input = ports.input := rfl

@[simp] theorem Memory.env_output : (m.env ports).output = ports.output := rfl

end Env

/-! ## Instructions and helpers -/

/-- The register of an operand; the operand `m` is in memory. -/
def regOf : I8080.Operand → Option Reg
  | .b => some .b | .c => some .c | .d => some .d | .e => some .e
  | .h => some .h | .l => some .l | .m => none | .a => some .a

def pairOf : I8080.Pair → Pair
  | .bc => .bc | .de => .de | .hl => .hl | .sp => .sp

def condOf : I8080.Cond → Condition
  | .nz => .nz | .z => .z | .nc => .nc | .c => .c
  | .po => .po | .pe => .pe | .p => .p | .m => .m

def halvesOf : I8080.Pair → Reg × Reg
  | .bc => (.b, .c) | .de => (.d, .e) | .hl => (.h, .l) | .sp => (.sph, .spl)

def aluReg (r : Reg) : I8080.AluOp → Micro
  | .add => .add r false | .adc => .add r true
  | .sub => .sub r false | .sbb => .sub r true
  | .ana => .ana r | .xra => .xra r | .ora => .ora r | .cmp => .cmp r

def aluMem : I8080.AluOp → Micro
  | .add => .addMem false | .adc => .addMem true
  | .sub => .subMem false | .sbb => .subMem true
  | .ana => .amaMem | .xra => .xraMem | .ora => .oraMem | .cmp => .cmpMem

def aluImm : I8080.AluOp → Micro
  | .add => .adi false | .adc => .adi true
  | .sub => .sbi false | .sbb => .sbi true
  | .ana => .ani | .xra => .xri | .ora => .ori | .cmp => .cpi

def microOf : I8080.Instr → Micro
  | .nop => .nop
  | .lxi rp => .lxi (halvesOf rp).1 (halvesOf rp).2
  | .dad rp => .dad (pairOf rp)
  | .stax rp => .stax (pairOf rp)
  | .ldax rp => .loadRegPtr .a (pairOf rp)
  | .shld => .shld | .lhld => .lhld | .sta => .sta | .lda => .lda
  | .inx rp => .inx (pairOf rp)
  | .dcx rp => .dcx (pairOf rp)
  | .inr r => (regOf r).elim .inrMem .inr
  | .dcr r => (regOf r).elim .dcrMem .dcr
  | .mvi r => (regOf r).elim .mviMemData .mviRegData
  | .rlc => .rlc | .rrc => .rrc | .ral => .ral | .rar => .rar
  | .daa => .daa | .cma => .cma | .stc => .stc | .cmc => .cmc
  | .hlt => .hlt
  | .mov dst src =>
      match regOf dst, regOf src with
      | some d, some r => .movRegReg d r
      | some d, none => .loadRegPtr d .hl
      | none, some r => .movMemReg r
      | none, none => .hlt
  | .alu op r => (regOf r).elim (aluMem op) (aluReg · op)
  | .aluImm op => aluImm op
  | .jmp => .jmp .always
  | .call => .call .always
  | .ret => .ret
  | .jmpIf cc => .jmp (condOf cc)
  | .callIf cc => .call (condOf cc)
  | .retIf cc => .retCond (condOf cc)
  | .pop .psw => .popPSW
  | .pop .bc => .pop .b .c | .pop .de => .pop .d .e | .pop .hl => .pop .h .l
  | .push .psw => .push .a .f
  | .push .bc => .push .b .c | .push .de => .push .d .e | .push .hl => .push .h .l
  | .rst n => .rst n
  | .pchl => .pchl | .sphl => .sphl | .xchg => .xchg | .xthl => .xthl
  | .in_ => .in_ | .out_ => .out_ | .ei => .ei | .di => .di

def cyclesNeeded : I8080.Instr → Nat
  | .nop | .rlc | .rrc | .ral | .rar | .daa | .cma | .stc | .cmc | .xchg | .ei | .di => 1
  | .hlt | .stax _ | .ldax _ | .inx _ | .dcx _ | .mov _ _ | .aluImm _ | .pchl | .sphl => 2
  | .lxi _ | .dad _ | .jmp | .jmpIf _ | .ret | .pop _ | .in_ | .out_ => 3
  | .sta | .lda | .retIf _ | .push _ | .rst _ => 4
  | .shld | .lhld => 5
  | .call | .callIf _ | .xthl => 6
  | .inr r | .dcr r => if r = .m then 3 else 2
  | .mvi r => if r = .m then 3 else 2
  | .alu _ r => if r = .m then 2 else 1

def opcodeMovML : Byte := 0x75#8

def Encodable (i : I8080.Instr) : Prop := i ≠ .hlt ∧ i ≠ .mov .m .m

instance (i : I8080.Instr) : Decidable (Encodable i) := inferInstanceAs (Decidable (_ ∧ _))

theorem decode_eq (opcode : Byte) : decode opcode = microOf (I8080.decode opcode) := by
  revert opcode
  decide +kernel

theorem mCycles_eq (opcode : Byte) (hhlt : opcode ≠ Sys.opcodeHlt) :
    Encodable (I8080.decode opcode) ∧
      (opcode ≠ opcodeMovML → mCycles opcode = cyclesNeeded (I8080.decode opcode)) := by
  revert opcode
  decide +kernel

/-! ## Running the cycles of one instruction -/

namespace Sys

structure AtBoundary (s : Sys σ) : Prop where
  mc : s.cpu.mc = 0
  hlta : s.cpu.hlta = false
  fixed : s.cpu.f.Fixed

def operandLo (s : Sys σ) : Byte := s.mem.getByte (s.cpu.pc.word + 1#16) .ram

def operandHi (s : Sys σ) : Byte := s.mem.getByte (s.cpu.pc.word + 2#16) .ram

def cyclesRun (s : Sys σ) : I8080.Instr → Nat
  | .callIf cc => if s.cpu.cond (condOf cc) then 6 else 4
  | .retIf cc => if s.cpu.cond (condOf cc) then 4 else 2
  | i => cyclesNeeded i

/--
Once fetched, `i` ends after `cyclesRun` cycles in the state that the reference
computes from the state before the fetch.
-/
def Completes (ports : PortFuncs σ) (irq : Nat → Bool) (s : Sys σ) (i : I8080.Instr) : Prop :=
  ∃ s', (∀ fuel, runCycles ports (microOf i) (cyclesNeeded i) (fuel + 6) irq s.fetchOpcode =
      some (s', s.cyclesRun i)) ∧
    s'.arch = s.arch.exec (s.mem.env ports) s.operandLo s.operandHi i ∧ s'.cpu.f.Fixed

theorem add_one_add_one (w : Addr) : w + 1#16 + 1#16 = w + 2#16 := by
  bv_omega

theorem add_two_add_one (w : Addr) : w + 2#16 + 1#16 = w + 3#16 := by
  bv_omega

theorem sub_one_sub_one (w : Addr) : w - 1#16 - 1#16 = w - 2#16 := by
  bv_omega

theorem extract_low (hi lo : Byte) : (hi ++ lo : Addr).extractLsb' 0 8 = lo :=
  BitVec.extractLsb'_append_eq_right

theorem extract_high (hi lo : Byte) : (hi ++ lo : Addr).extractLsb' 8 8 = hi :=
  BitVec.extractLsb'_append_eq_left

theorem ofWord_l (w : Addr) : (RegPair.ofWord w).l = w.extractLsb' 0 8 := rfl

theorem ofWord_h (w : Addr) : (RegPair.ofWord w).h = w.extractLsb' 8 8 := rfl

theorem append_halves (p : RegPair) : p.h ++ p.l = p.word := rfl

section Cycles

variable (ports : PortFuncs σ) (irq : Nat → Bool) {s : Sys σ}

-- symbolic execution of the cycles: everything that is not the helper itself
attribute [local simp] Completes runCycles cycle exec isInstructionExecuted stepMC setMC addCC
  latchIrq fetchOpcode readInstrMovePC readByte writeByte Memory.cpuReadInstr_eq
  Memory.cpuRead_eq arch I8080.State.exec I8080.State.advance add_one_add_one add_two_add_one
  sub_one_sub_one append_halves operandLo operandHi cyclesRun microOf cyclesNeeded
  I8080.State.hl

/-! ### Moves, loads and stores -/

theorem mov_completes (h : s.AtBoundary) {dst src : I8080.Operand}
    (hne : ¬(dst = .m ∧ src = .m)) : Completes ports irq s (.mov dst src) := by
  obtain ⟨hmc, hlta, hf⟩ := h
  cases dst <;> cases src
  case m.m => exact absurd ⟨rfl, rfl⟩ hne
  all_goals
    simp [movRegReg, loadRegPtr, movMemReg, hmc, hlta, regOf, setReg, CpuState.reg,
      CpuState.setReg, CpuState.pair, I8080.State.set, I8080.State.get]
    exact hf

theorem mvi_completes (h : s.AtBoundary) (r : I8080.Operand) :
    Completes ports irq s (.mvi r) := by
  obtain ⟨hmc, hlta, hf⟩ := h
  cases r <;>
    simp [mviRegData, mviMemData, fetchTmp, hmc, hlta, regOf, setReg, CpuState.setReg,
      I8080.State.set] <;>
    exact hf

theorem lxi_completes (h : s.AtBoundary) (rp : I8080.Pair) :
    Completes ports irq s (.lxi rp) := by
  obtain ⟨hmc, hlta, hf⟩ := h
  cases rp <;>
    simp [lxi, halvesOf, hmc, hlta, setReg, CpuState.setReg, I8080.State.setPair, extract_low,
      extract_high] <;>
    exact hf

theorem stax_completes (h : s.AtBoundary) (rp : I8080.Pair) :
    Completes ports irq s (.stax rp) := by
  obtain ⟨hmc, hlta, hf⟩ := h
  cases rp <;> simp [stax, pairOf, hmc, hlta, CpuState.pair, I8080.State.getPair] <;> exact hf

theorem ldax_completes (h : s.AtBoundary) (rp : I8080.Pair) :
    Completes ports irq s (.ldax rp) := by
  obtain ⟨hmc, hlta, hf⟩ := h
  cases rp <;>
    simp [loadRegPtr, pairOf, hmc, hlta, CpuState.pair, setReg, CpuState.setReg,
      I8080.State.getPair] <;>
    exact hf

theorem lda_completes (h : s.AtBoundary) : Completes ports irq s .lda := by
  obtain ⟨hmc, hlta, hf⟩ := h
  simp [lda, fetchZ, fetchW, setReg, CpuState.setReg, hmc, hlta]
  exact hf

theorem sta_completes (h : s.AtBoundary) : Completes ports irq s .sta := by
  obtain ⟨hmc, hlta, hf⟩ := h
  simp [sta, fetchZ, fetchW, hmc, hlta]
  exact hf

theorem lhld_completes (h : s.AtBoundary) : Completes ports irq s .lhld := by
  obtain ⟨hmc, hlta, hf⟩ := h
  simp [lhld, fetchZ, fetchW, incWZ, setReg, CpuState.setReg, hmc, hlta]
  exact hf

theorem shld_completes (h : s.AtBoundary) : Completes ports irq s .shld := by
  obtain ⟨hmc, hlta, hf⟩ := h
  simp [shld, fetchZ, fetchW, incWZ, hmc, hlta]
  exact hf

theorem xthl_completes (h : s.AtBoundary) : Completes ports irq s .xthl := by
  obtain ⟨hmc, hlta, hf⟩ := h
  simp [xthl, hmc, hlta]
  exact hf

theorem pairMove_completes (h : s.AtBoundary) :
    Completes ports irq s .xchg ∧ Completes ports irq s .sphl ∧ Completes ports irq s .pchl := by
  obtain ⟨hmc, hlta, hf⟩ := h
  refine ⟨?_, ?_, ?_⟩
  · simp [xchg, hmc, hlta]
    exact hf
  · simp [sphl, hmc, hlta]
    exact hf
  · simp [pchl, hmc, hlta]
    exact hf

theorem push_completes (h : s.AtBoundary) (rp : I8080.StackPair) :
    Completes ports irq s (.push rp) := by
  obtain ⟨hmc, hlta, hf⟩ := h
  have hbyte := Flags.toByte_arch hf
  cases rp <;>
    simp [push, decSP, hmc, hlta, CpuState.reg, I8080.State.push, I8080.State.pushBytes, hbyte] <;>
    exact hf

theorem popPSW_flags (v : Byte) :
    (Flags.ofByte ((v &&& pswNulFlags) ||| pswInit)).arch = I8080.Flags.ofByte v ∧
      (Flags.ofByte ((v &&& pswNulFlags) ||| pswInit)).Fixed := by
  constructor
  · simp [Flags.ofByte, Flags.arch, I8080.Flags.ofByte, pswNulFlags, pswInit]
  · simp [Flags.ofByte, Flags.Fixed, pswNulFlags, pswInit]

theorem popPSW_idem (v : Byte) :
    (((v &&& pswNulFlags) ||| pswInit) &&& pswNulFlags) ||| pswInit =
      (v &&& pswNulFlags) ||| pswInit := by
  revert v
  decide +kernel

theorem pop_completes (h : s.AtBoundary) (rp : I8080.StackPair) :
    Completes ports irq s (.pop rp) := by
  obtain ⟨hmc, hlta, hf⟩ := h
  cases rp
  case psw =>
    obtain ⟨hflags, hfixed⟩ := popPSW_flags (s.mem.getByte s.cpu.sp.word .stack)
    simp [popPSW, pop, incSP, hmc, hlta, setReg, CpuState.setReg, I8080.State.pop,
      popPSW_idem, hflags]
    exact hfixed
  all_goals
    simp [pop, incSP, hmc, hlta, setReg, CpuState.setReg, I8080.State.pop]
    exact hf

/-! ### Arithmetic and logic -/

theorem alu_completes (h : s.AtBoundary) (op : I8080.AluOp) (r : I8080.Operand) :
    Completes ports irq s (.alu op r) := by
  obtain ⟨hmc, hlta, hf⟩ := h
  cases op <;> cases r <;>
    simp [aluReg, aluMem, carryArg, add_eq, sub_eq, accumulate, memOp, ana, xra, ora, cmp, addMem,
      subMem, amaMem, xraMem, oraMem, cmpMem, addActTmp, subActTmp, andActTmp_eq, orActTmp_eq,
      xorActTmp_eq, cmpActTmp_eq, latchOperands, latchAct, readTmp, hmc, hlta, regOf,
      CpuState.reg, I8080.State.accumulate, I8080.alu, I8080.State.get] <;>
    exact hf

theorem aluImm_completes (h : s.AtBoundary) (op : I8080.AluOp) :
    Completes ports irq s (.aluImm op) := by
  obtain ⟨hmc, hlta, hf⟩ := h
  cases op <;>
    simp [aluImm, carryArg, add_eq, sub_eq, accumulate, immOp, adi, sbi, ani, xri, ori, cpi,
      addActTmp, subActTmp, andActTmp_eq, orActTmp_eq, xorActTmp_eq, cmpActTmp_eq, latchAct,
      fetchTmp, hmc, hlta, I8080.State.accumulate, I8080.alu] <;>
    exact hf

theorem inr_completes (h : s.AtBoundary) (r : I8080.Operand) : Completes ports irq s (.inr r) := by
  obtain ⟨hmc, hlta, hf⟩ := h
  cases r <;>
    simp [inr, inrMem, incTmp_eq, setTmpKeepCY, readTmp, hmc, hlta, regOf, setReg, CpuState.reg,
      CpuState.setReg, I8080.State.setKeepCY, I8080.State.get, I8080.State.set] <;>
    exact hf

theorem dcr_completes (h : s.AtBoundary) (r : I8080.Operand) : Completes ports irq s (.dcr r) := by
  obtain ⟨hmc, hlta, hf⟩ := h
  cases r <;>
    simp [dcr, dcrMem, decTmp_eq, setTmpKeepCY, readTmp, hmc, hlta, regOf, setReg, CpuState.reg,
      CpuState.setReg, I8080.State.setKeepCY, I8080.State.get, I8080.State.set] <;>
    exact hf

theorem inx_completes (h : s.AtBoundary) (rp : I8080.Pair) : Completes ports irq s (.inx rp) := by
  obtain ⟨hmc, hlta, hf⟩ := h
  cases rp <;>
    simp [inx, pairOf, hmc, hlta, setPair, CpuState.pair, CpuState.setPair, I8080.State.getPair,
      I8080.State.setPair, ofWord_l, ofWord_h] <;>
    exact hf

theorem dcx_completes (h : s.AtBoundary) (rp : I8080.Pair) : Completes ports irq s (.dcx rp) := by
  obtain ⟨hmc, hlta, hf⟩ := h
  cases rp <;>
    simp [dcx, pairOf, hmc, hlta, setPair, CpuState.pair, CpuState.setPair, I8080.State.getPair,
      I8080.State.setPair, ofWord_l, ofWord_h] <;>
    exact hf

theorem dad_completes (h : s.AtBoundary) (rp : I8080.Pair) : Completes ports irq s (.dad rp) := by
  obtain ⟨hmc, hlta, hf⟩ := h
  have hbytes := dad_bytes s.cpu.hl
  cases rp with
  | bc =>
      obtain ⟨hlow, hhigh, hcarry⟩ := hbytes s.cpu.bc
      simp [dad, pairOf, hmc, hlta, CpuState.pair, I8080.State.getPair, I8080.State.setPair,
        Flags.arch, hlow, hhigh, hcarry]
      exact ⟨rfl, hf⟩
  | de =>
      obtain ⟨hlow, hhigh, hcarry⟩ := hbytes s.cpu.de
      simp [dad, pairOf, hmc, hlta, CpuState.pair, I8080.State.getPair, I8080.State.setPair,
        Flags.arch, hlow, hhigh, hcarry]
      exact ⟨rfl, hf⟩
  | hl =>
      obtain ⟨hlow, hhigh, hcarry⟩ := hbytes s.cpu.hl
      simp [dad, pairOf, hmc, hlta, CpuState.pair, I8080.State.getPair, I8080.State.setPair,
        Flags.arch, hlow, hhigh, hcarry]
      exact ⟨rfl, hf⟩
  | sp =>
      obtain ⟨hlow, hhigh, hcarry⟩ := hbytes s.cpu.sp
      simp [dad, pairOf, hmc, hlta, CpuState.pair, I8080.State.getPair, I8080.State.setPair,
        Flags.arch, hlow, hhigh, hcarry]
      exact ⟨rfl, hf⟩

theorem accumulator_completes (h : s.AtBoundary) :
    (Completes ports irq s .daa ∧ Completes ports irq s .cma ∧ Completes ports irq s .stc ∧
      Completes ports irq s .cmc) ∧
    (Completes ports irq s .rlc ∧ Completes ports irq s .rrc ∧ Completes ports irq s .ral ∧
      Completes ports irq s .rar) := by
  obtain ⟨hmc, hlta, hf⟩ := h
  refine ⟨⟨?_, ?_, ?_, ?_⟩, ?_, ?_, ?_, ?_⟩
  · simp [daa_eq, accumulate, hmc, hlta, I8080.State.accumulate]
    exact hf
  · simp [cma, hmc, hlta]
    exact hf
  · simp [stc, hmc, hlta, Flags.arch]
    exact hf
  · simp [cmc, hmc, hlta, Flags.arch]
    exact hf
  · simp [rlc_eq, rotate, hmc, hlta, I8080.State.rotate, Flags.arch]
    exact hf
  · simp [rrc_eq, rotate, hmc, hlta, I8080.State.rotate, Flags.arch]
    exact hf
  · simp [ral_eq, rotate, hmc, hlta, I8080.State.rotate, Flags.arch]
    exact hf
  · simp [rar_eq, rotate, hmc, hlta, I8080.State.rotate, Flags.arch]
    exact hf

/-! ### Control flow -/

theorem cond_eq (s : Sys σ) (cc : I8080.Cond) : s.cpu.cond (condOf cc) = s.arch.holds cc := by
  cases cc <;> rfl

theorem jmp_completes (h : s.AtBoundary) : Completes ports irq s .jmp := by
  obtain ⟨hmc, hlta, hf⟩ := h
  simp [jmp, fetchZ, fetchW, jumpWZ, CpuState.cond, hmc, hlta]
  exact hf

theorem cond_congr {t : CpuState} (hf : t.f = s.cpu.f) (cc : I8080.Cond) :
    t.cond (condOf cc) = s.arch.holds cc := by
  cases cc <;> simp [CpuState.cond, condOf, I8080.State.holds, hf, Flags.arch]

theorem jmpIf_completes (h : s.AtBoundary) (cc : I8080.Cond) :
    Completes ports irq s (.jmpIf cc) := by
  obtain ⟨hmc, hlta, hf⟩ := h
  cases hcc : s.arch.holds cc
  all_goals
    have hcond : ∀ t : CpuState, t.f = s.cpu.f → t.cond (condOf cc) = _ := fun t ht =>
      (cond_congr ht cc).trans hcc
    simp only [arch] at hcc
    simp [jmp, fetchZ, fetchW, jumpWZ, hcc, hcond, hmc, hlta]
    exact hf

theorem call_completes (h : s.AtBoundary) : Completes ports irq s .call := by
  obtain ⟨hmc, hlta, hf⟩ := h
  simp [call, decSP, fetchZ, fetchW, jumpWZ, CpuState.cond, hmc, hlta, I8080.State.pushPC,
    I8080.State.pushBytes, ofWord_l, ofWord_h]
  exact hf

theorem callIf_completes (h : s.AtBoundary) (cc : I8080.Cond) :
    Completes ports irq s (.callIf cc) := by
  obtain ⟨hmc, hlta, hf⟩ := h
  cases hcc : s.arch.holds cc
  all_goals
    have hcond : ∀ t : CpuState, t.f = s.cpu.f → t.cond (condOf cc) = _ := fun t ht =>
      (cond_congr ht cc).trans hcc
    simp only [arch] at hcc
    simp [call, decSP, fetchZ, fetchW, jumpWZ, hcc, hcond, hmc, hlta, I8080.State.pushPC,
      I8080.State.pushBytes, ofWord_l, ofWord_h]
    exact hf

theorem rst_completes (h : s.AtBoundary) (n : Fin 8) : Completes ports irq s (.rst n) := by
  obtain ⟨hmc, hlta, hf⟩ := h
  have hvector : (0#8 ++ BitVec.ofNat 8 (n.val <<< 3) : Addr) = BitVec.ofNat 16 (8 * n.val) := by
    revert n
    decide
  simp [rst, decSP, jumpWZ, hmc, hlta, I8080.State.pushPC, I8080.State.pushBytes, ofWord_l,
    ofWord_h, hvector]
  exact hf

theorem ret_completes (h : s.AtBoundary) : Completes ports irq s .ret := by
  obtain ⟨hmc, hlta, hf⟩ := h
  simp [ret, popZ, popW, incSP, jumpWZ, hmc, hlta, I8080.State.ret, I8080.State.top]
  exact hf

theorem retIf_completes (h : s.AtBoundary) (cc : I8080.Cond) :
    Completes ports irq s (.retIf cc) := by
  obtain ⟨hmc, hlta, hf⟩ := h
  cases hcc : s.arch.holds cc
  all_goals
    have hcond : ∀ t : CpuState, t.f = s.cpu.f → t.cond (condOf cc) = _ := fun t ht =>
      (cond_congr ht cc).trans hcc
    simp only [arch] at hcc
    simp [retCond, popZ, popW, incSP, jumpWZ, hcc, hcond, hmc, hlta, I8080.State.ret,
      I8080.State.top]
    exact hf

/-! ### Ports and the interrupt enable -/

theorem in_completes (h : s.AtBoundary) : Completes ports irq s .in_ := by
  obtain ⟨hmc, hlta, hf⟩ := h
  simp [in_, fetchPort, hmc, hlta]
  exact hf

theorem out_completes (h : s.AtBoundary) : Completes ports irq s .out_ := by
  obtain ⟨hmc, hlta, hf⟩ := h
  simp [out_, fetchPort, hmc, hlta]
  exact hf

theorem enable_completes (h : s.AtBoundary) :
    Completes ports irq s .ei ∧ Completes ports irq s .di ∧ Completes ports irq s .nop := by
  obtain ⟨hmc, hlta, hf⟩ := h
  refine ⟨?_, ?_, ?_⟩
  · simp [ei, hmc, hlta]
    exact hf
  · simp [di, hmc, hlta]
    exact hf
  · simp [hmc, hlta]
    exact hf

end Cycles

theorem completes (ports : PortFuncs σ) (irq : Nat → Bool) {s : Sys σ} (h : s.AtBoundary)
    {i : I8080.Instr} (hi : Encodable i) : Completes ports irq s i := by
  obtain ⟨⟨hdaa, hcma, hstc, hcmc⟩, hrlc, hrrc, hral, hrar⟩ := accumulator_completes ports irq h
  obtain ⟨hxchg, hsphl, hpchl⟩ := pairMove_completes ports irq h
  obtain ⟨hei, hdi, hnop⟩ := enable_completes ports irq h
  cases i with
  | nop => exact hnop
  | lxi rp => exact lxi_completes ports irq h rp
  | dad rp => exact dad_completes ports irq h rp
  | stax rp => exact stax_completes ports irq h rp
  | ldax rp => exact ldax_completes ports irq h rp
  | shld => exact shld_completes ports irq h
  | lhld => exact lhld_completes ports irq h
  | sta => exact sta_completes ports irq h
  | lda => exact lda_completes ports irq h
  | inx rp => exact inx_completes ports irq h rp
  | dcx rp => exact dcx_completes ports irq h rp
  | inr r => exact inr_completes ports irq h r
  | dcr r => exact dcr_completes ports irq h r
  | mvi r => exact mvi_completes ports irq h r
  | rlc => exact hrlc
  | rrc => exact hrrc
  | ral => exact hral
  | rar => exact hrar
  | daa => exact hdaa
  | cma => exact hcma
  | stc => exact hstc
  | cmc => exact hcmc
  | hlt => exact absurd rfl hi.1
  | mov dst src =>
      refine mov_completes ports irq h ?_
      rintro ⟨rfl, rfl⟩
      exact hi.2 rfl
  | alu op r => exact alu_completes ports irq h op r
  | aluImm op => exact aluImm_completes ports irq h op
  | jmp => exact jmp_completes ports irq h
  | call => exact call_completes ports irq h
  | ret => exact ret_completes ports irq h
  | jmpIf cc => exact jmpIf_completes ports irq h cc
  | callIf cc => exact callIf_completes ports irq h cc
  | retIf cc => exact retIf_completes ports irq h cc
  | pop rp => exact pop_completes ports irq h rp
  | push rp => exact push_completes ports irq h rp
  | rst n => exact rst_completes ports irq h n
  | pchl => exact hpchl
  | sphl => exact hsphl
  | xchg => exact hxchg
  | xthl => exact xthl_completes ports irq h
  | in_ => exact in_completes ports irq h
  | out_ => exact out_completes ports irq h
  | ei => exact hei
  | di => exact hdi

/-! ## The refinement theorem -/

/-- No interrupt is accepted in the next cycle. -/
def NotInterrupted (irq : Nat → Bool) (s : Sys σ) : Prop :=
  ((s.latchIrq (irq 0)).cpu.iff && !s.cpu.eiPending) = false

/-- `M_CYCLES` of the opcode, less for a conditional call or return that is not taken. -/
def expectedCycles (s : Sys σ) : Nat :=
  match decode s.opcode with
  | .call condition => if s.cpu.cond condition then mCycles s.opcode else 4
  | .retCond condition => if s.cpu.cond condition then mCycles s.opcode else 2
  | _ => mCycles s.opcode

/--
`executeInstruction` returns after `expectedCycles` cycles, with the registers,
global RAM, stores and device state of the reference, and with the fixed bits of
`F` in place again.  The device state is any type, a log of `OUT` calls included.
-/
def MatchesReference (ports : PortFuncs σ) (irq : Nat → Bool) (s : Sys σ) : Prop :=
  ∃ s', (∀ fuel, executeInstruction ports (fuel + 6) irq s = some (s', s.expectedCycles)) ∧
    s'.arch = s.arch.step (s.mem.env ports) ∧ s'.cpu.f.Fixed

theorem expectedCycles_eq {s : Sys σ} {i : I8080.Instr} (hi : decode s.opcode = microOf i)
    (hm : mCycles s.opcode = cyclesNeeded i) : s.expectedCycles = s.cyclesRun i := by
  unfold expectedCycles
  rw [hi, hm]
  cases i with
  | inr r | dcr r | mvi r => cases r <;> rfl
  | alu op r => cases op <;> cases r <;> rfl
  | aluImm op => cases op <;> rfl
  | mov dst src => cases dst <;> cases src <;> rfl
  | pop rp | push rp => cases rp <;> rfl
  | _ => rfl

theorem matches_of_ne_movML (ports : PortFuncs σ) {irq : Nat → Bool} {s : Sys σ}
    (h : s.AtBoundary) (hno : s.NotInterrupted irq) (hhlt : s.opcode ≠ opcodeHlt)
    (hne : s.opcode ≠ opcodeMovML) : s.MatchesReference ports irq := by
  obtain ⟨henc, hcycles⟩ := mCycles_eq s.opcode hhlt
  have hdecode := decode_eq s.opcode
  have hlatch : (s.latchIrq (irq 0)).AtBoundary := ⟨h.mc, h.hlta, h.fixed⟩
  obtain ⟨s', hrun, harch, hfixed⟩ := completes ports (fun n => irq (n + 1)) hlatch henc
  refine ⟨s', ?_, harch, hfixed⟩
  intro fuel
  rw [executeInstruction_of_fetch ports _ irq s h.mc hno,
    expectedCycles_eq hdecode (hcycles hne)]
  have hexec := hrun fuel
  rw [← hcycles hne, ← hdecode] at hexec
  exact hexec

theorem executeInstruction_movML (ports : PortFuncs σ) {irq : Nat → Bool} {s : Sys σ}
    (h : s.AtBoundary) (hno : s.NotInterrupted irq) (hop : s.opcode = opcodeMovML) (fuel : Nat) :
    ∃ s', executeInstruction ports (fuel + 6) irq s = some (s', 1) ∧ s'.stores = s.stores ∧
      s'.mem.ram = s.mem.ram := by
  have hop' : s.opcode = 0x75#8 := hop
  refine ⟨(s.latchIrq (irq 0)).fetchOpcode.cycle ports (.movMemReg .l) 1, ?_, ?_, ?_⟩
  · have hmicro : decode 0x75#8 = .movMemReg .l := rfl
    have hcycles : mCycles 0x75#8 = 1 := rfl
    rw [executeInstruction_of_fetch ports _ irq s h.mc hno, hop', hmicro, hcycles]
    simp [runCycles, cycle, exec, movMemReg, isInstructionExecuted, fetchOpcode, readInstrMovePC,
      Memory.cpuReadInstr_eq, latchIrq, stepMC, setMC, addCC, h.mc]
  · simp [cycle, exec, movMemReg, fetchOpcode, readInstrMovePC, Memory.cpuReadInstr_eq, latchIrq,
      stepMC, setMC, addCC, h.mc]
  · simp [cycle, exec, movMemReg, fetchOpcode, readInstrMovePC, Memory.cpuReadInstr_eq, latchIrq,
      stepMC, setMC, addCC, h.mc]

theorem step_stores_of_movML (ports : PortFuncs σ) {s : Sys σ} (hop : s.opcode = opcodeMovML) :
    (s.arch.step (s.mem.env ports)).mem.stores = s.stores ++
      [⟨s.mem.getGlobalAddr s.cpu.hl.word .ram, s.cpu.hl.l,
        s.mem.ram.read (s.mem.getGlobalAddr s.cpu.hl.word .ram)⟩] := by
  have hread : (s.mem.env ports).read s.arch.mem s.arch.pc = 0x75#8 := hop
  rw [I8080.State.step, hread]
  rfl

/--
The machine cycles of an instruction refine the one-shot semantics exactly for
the opcodes other than `MOV M,L`.
-/
theorem executeInstruction_matches_iff (ports : PortFuncs σ) (irq : Nat → Bool) (s : Sys σ)
    (h : s.AtBoundary) (hno : s.NotInterrupted irq) (hhlt : s.opcode ≠ opcodeHlt) :
    s.MatchesReference ports irq ↔ s.opcode ≠ opcodeMovML := by
  constructor
  · rintro ⟨s', hrun, harch, -⟩ hop
    obtain ⟨t, ht, hstores, -⟩ := executeInstruction_movML ports h hno hop 0
    have heq : s' = t := congrArg Prod.fst (Option.some.inj ((hrun 0).symm.trans ht))
    have hlen : s'.arch.mem.stores.length = (s.arch.step (s.mem.env ports)).mem.stores.length := by
      rw [harch]
    rw [step_stores_of_movML ports hop, heq] at hlen
    have ht' : t.arch.mem.stores = s.stores := hstores
    rw [ht', List.length_append] at hlen
    simp at hlen
  · exact matches_of_ne_movML ports h hno hhlt

/-- `PUSH B` at address 0 with `SP = 0x2000` and `BC = 0x0102`, over otherwise cleared RAM. -/
def pushState : Sys Unit where
  cpu := { CpuState.reset with sp := ⟨0x00, 0x20⟩, bc := ⟨0x02, 0x01⟩ }
  mem := .ofRam fun i => if i.val = 0 then 0xC5 else 0
  io := ()
  stores := []

/-- A witness: `PUSH` matches the reference, which stores the two bytes of `BC`. -/
theorem executeInstruction_matches_push :
    let ports : PortFuncs Unit := ⟨fun _ io => (0, io), fun _ _ io => io⟩
    pushState.MatchesReference ports (fun _ => false) ∧
      (pushState.arch.step (pushState.mem.env ports)).mem.stores =
        [⟨0x1FFF, 1, 0⟩, ⟨0x1FFE, 2, 0⟩] := by
  intro ports
  have hiff := executeInstruction_matches_iff ports (fun _ => false) pushState
    ⟨rfl, rfl, by decide⟩ rfl (by decide)
  exact ⟨hiff.mpr (by decide), by decide +kernel⟩

/-- `HL = 0x0105` and the program `MOV M,L` at address 0 over otherwise cleared RAM. -/
def movMLState : Sys Unit where
  cpu := { CpuState.reset with hl := ⟨0x05, 0x01⟩ }
  mem := .ofRam fun i => if i.val = 0 then opcodeMovML else 0
  io := ()
  stores := []

/-- The reference stores 5 at `0x0105`; the processor leaves the byte as it was. -/
theorem movML_loses_store :
    let ports : PortFuncs Unit := ⟨fun _ io => (0, io), fun _ _ io => io⟩
    let irq : Nat → Bool := fun _ => false
    movMLState.AtBoundary ∧ movMLState.NotInterrupted irq ∧ movMLState.opcode ≠ opcodeHlt ∧
      (movMLState.arch.step (movMLState.mem.env ports)).mem.ram.read 0x0105 = 5 ∧
      (∃ s', executeInstruction ports 6 irq movMLState = some (s', 1) ∧
        s'.mem.ram.read 0x0105 = 0) ∧
      ¬movMLState.MatchesReference ports irq := by
  intro ports irq
  have hb : movMLState.AtBoundary := ⟨rfl, rfl, by decide⟩
  refine ⟨hb, rfl, by decide, by decide, ?_, ?_⟩
  · obtain ⟨s', hrun, -, hram⟩ := @executeInstruction_movML _ ports irq _ hb rfl rfl 0
    exact ⟨s', hrun, by rw [hram]; decide⟩
  · rintro ⟨s', hrun, harch, -⟩
    obtain ⟨t, ht, -, hram⟩ := @executeInstruction_movML _ ports irq _ hb rfl rfl 0
    have heq : s' = t := congrArg Prod.fst (Option.some.inj ((hrun 0).symm.trans ht))
    have hbyte : s'.mem.ram.read 0x0105 =
        (movMLState.arch.step (movMLState.mem.env ports)).mem.ram.read 0x0105 :=
      congrArg (fun a => a.mem.ram.read 0x0105) harch
    rw [heq, hram] at hbyte
    exact absurd hbyte (by decide)

end Sys

end V6Emul
