import V6Emul.Cpu.Refinement
import V6Emul.Debugger.TraceLog

/-!
# The step-over address

`GetStepOverAddr` predicts where an instruction leads from the tables of instruction
lengths and types.  The prediction is compared with the decoder and with the machine
cycles that follow from it.
-/

namespace V6Emul

/-! ## The prediction -/

def optypeJmp : Nat := 3
def optypeRet : Nat := 5
def optypePch : Nat := 6
def optypeRst : Nat := 7

def opcodeRst0 : Byte := 0xC7#8
def opcodeJnz : Byte := 0xC2#8
def opcodeJz : Byte := 0xCA#8
def opcodeJnc : Byte := 0xD2#8
def opcodeJc : Byte := 0xDA#8
def opcodeJpo : Byte := 0xE2#8
def opcodeJpe : Byte := 0xEA#8
def opcodeJp : Byte := 0xF2#8
def opcodeJm : Byte := 0xFA#8

def instrTypes : List Nat :=
  List.replicate 192 8 ++
  [4, 8, 2, 3, 0, 8, 8, 7, 4, 5, 2, 8, 0, 1, 8, 7,
   4, 8, 2, 8, 0, 8, 8, 7, 4, 8, 2, 8, 0, 8, 8, 7,
   4, 8, 2, 8, 0, 8, 8, 7, 4, 6, 2, 8, 0, 8, 8, 7,
   4, 8, 2, 8, 0, 8, 8, 7, 4, 8, 2, 8, 0, 8, 8, 7]

def getInstrType (opcode : Byte) : Nat := instrTypes.getD opcode.toNat 0

def getStepOverAddr (cpu : CpuState) (mem : Memory) : Addr :=
  let pc := cpu.pc.word
  let sp := cpu.sp.word
  let opcode := mem.getByte pc .ram
  let imAddr : Addr := mem.getByte (pc + 2) .ram ++ mem.getByte (pc + 1) .ram
  let nextPc := pc + BitVec.ofNat 16 (getInstrLen opcode)
  let type := getInstrType opcode
  if type = optypeJmp then imAddr
  else if type = optypeRet then mem.getByte (sp + 1) .stack ++ mem.getByte sp .stack
  else if type = optypePch then cpu.hl.word
  else if type = optypeRst then opcode.setWidth 16 - opcodeRst0.setWidth 16
  else if opcode = opcodeJnz then if cpu.f.z then nextPc else imAddr
  else if opcode = opcodeJz then if cpu.f.z then imAddr else nextPc
  else if opcode = opcodeJnc then if cpu.f.c then nextPc else imAddr
  else if opcode = opcodeJc then if cpu.f.c then imAddr else nextPc
  else if opcode = opcodeJpo then if cpu.f.p then nextPc else imAddr
  else if opcode = opcodeJpe then if cpu.f.p then imAddr else nextPc
  else if opcode = opcodeJp then if cpu.f.s then nextPc else imAddr
  else if opcode = opcodeJm then if cpu.f.s then imAddr else nextPc
  else nextPc

/-! ## Where an instruction leads -/

/-- A target that is named by the instruction and not yet read. -/
inductive Target where
  | after (len : Nat)
  | immediate
  | top
  | hl
  | restart (addr : Addr)
  | jumpIf (cc : Condition) (len : Nat)
  deriving DecidableEq

namespace Target

def topWord (cpu : CpuState) (mem : Memory) : Addr :=
  mem.getByte (cpu.sp.word + 1) .stack ++ mem.getByte cpu.sp.word .stack

def immediateWord (cpu : CpuState) (mem : Memory) : Addr :=
  mem.getByte (cpu.pc.word + 2) .ram ++ mem.getByte (cpu.pc.word + 1) .ram

def address (cpu : CpuState) (mem : Memory) : Target → Addr
  | .after len => cpu.pc.word + BitVec.ofNat 16 len
  | .immediate => immediateWord cpu mem
  | .top => topWord cpu mem
  | .hl => cpu.hl.word
  | .restart addr => addr
  | .jumpIf cc len =>
      if cpu.cond cc then immediateWord cpu mem else cpu.pc.word + BitVec.ofNat 16 len

end Target

def predicted (opcode : Byte) : Target :=
  let type := getInstrType opcode
  let len := getInstrLen opcode
  if type = optypeJmp then .immediate
  else if type = optypeRet then .top
  else if type = optypePch then .hl
  else if type = optypeRst then .restart (opcode.setWidth 16 - opcodeRst0.setWidth 16)
  else if opcode = opcodeJnz then .jumpIf .nz len
  else if opcode = opcodeJz then .jumpIf .z len
  else if opcode = opcodeJnc then .jumpIf .nc len
  else if opcode = opcodeJc then .jumpIf .c len
  else if opcode = opcodeJpo then .jumpIf .po len
  else if opcode = opcodeJpe then .jumpIf .pe len
  else if opcode = opcodeJp then .jumpIf .p len
  else if opcode = opcodeJm then .jumpIf .m len
  else .after len

theorem getStepOverAddr_eq (cpu : CpuState) (mem : Memory) :
    getStepOverAddr cpu mem = (predicted (mem.getByte cpu.pc.word .ram)).address cpu mem := by
  have hunless : ∀ (b : Bool) (x y : Addr), (if b then x else y) = if !b then y else x := by
    intro b x y
    cases b <;> rfl
  rw [getStepOverAddr, predicted]
  simp only [apply_ite (Target.address cpu mem)]
  refine ite_congr rfl (fun _ => rfl) fun _ => ?_
  refine ite_congr rfl (fun _ => rfl) fun _ => ?_
  refine ite_congr rfl (fun _ => rfl) fun _ => ?_
  refine ite_congr rfl (fun _ => rfl) fun _ => ?_
  refine ite_congr rfl (fun _ => hunless _ _ _) fun _ => ?_
  refine ite_congr rfl (fun _ => rfl) fun _ => ?_
  refine ite_congr rfl (fun _ => hunless _ _ _) fun _ => ?_
  refine ite_congr rfl (fun _ => rfl) fun _ => ?_
  refine ite_congr rfl (fun _ => hunless _ _ _) fun _ => ?_
  refine ite_congr rfl (fun _ => rfl) fun _ => ?_
  refine ite_congr rfl (fun _ => hunless _ _ _) fun _ => ?_
  refine ite_congr rfl (fun _ => rfl) fun _ => ?_
  rfl

def target : I8080.Instr → Target
  | .jmp => .immediate
  | .ret => .top
  | .pchl => .hl
  | .jmpIf cc => .jumpIf (condOf cc) 3
  | i => .after i.length

/-- The undocumented opcodes of `JMP`, `RET` and `CALL`, which the tables do not know. -/
def opcodeJmpAlias : Byte := 0xCB#8
def opcodeRetAlias : Byte := 0xD9#8
def opcodesCallAlias : List Byte := [0xDD#8, 0xED#8, 0xFD#8]

def Untabled (opcode : Byte) : Prop :=
  (∃ n, I8080.decode opcode = .rst n) ∨ opcode = opcodeJmpAlias ∨ opcode = opcodeRetAlias ∨
    opcode ∈ opcodesCallAlias

instance (opcode : Byte) : Decidable (Untabled opcode) := by
  unfold Untabled
  infer_instance

theorem predicted_of_tabled {opcode : Byte} (h : ¬ Untabled opcode) :
    predicted opcode = target (I8080.decode opcode) := by
  revert opcode
  decide +kernel

theorem predicted_alias {opcode : Byte}
    (h : opcode = opcodeJmpAlias ∨ opcode = opcodeRetAlias ∨ opcode ∈ opcodesCallAlias) :
    predicted opcode = .after 1 := by
  revert opcode
  decide +kernel

theorem decode_alias :
    I8080.decode opcodeJmpAlias = .jmp ∧ I8080.decode opcodeRetAlias = .ret ∧
      ∀ opcode ∈ opcodesCallAlias, I8080.decode opcode = .call := by
  decide +kernel

def callsOrReturns : Micro → Bool
  | .call _ | .retCond _ | .rst _ => true
  | _ => false

def callsOrReturnsRef : I8080.Instr → Bool
  | .call | .callIf _ | .retIf _ | .rst _ => true
  | _ => false

theorem callsOrReturns_decode (opcode : Byte) :
    callsOrReturns (decode opcode) = callsOrReturnsRef (I8080.decode opcode) := by
  revert opcode
  decide +kernel

/-! ## The prediction and the machine cycles -/

namespace Sys

variable {σ : Type}

def LeadsTo (ports : PortFuncs σ) (irq : Nat → Bool) (s : Sys σ) (addr : Addr) : Prop :=
  ∃ s' n, (∀ fuel, executeInstruction ports (fuel + 6) irq s = some (s', n)) ∧
    s'.cpu.pc.word = addr

theorem LeadsTo.unique {ports : PortFuncs σ} {irq : Nat → Bool} {s : Sys σ} {a b : Addr}
    (ha : s.LeadsTo ports irq a) (hb : s.LeadsTo ports irq b) : a = b := by
  obtain ⟨s', n, hrun, rfl⟩ := ha
  obtain ⟨t', m, hrun', rfl⟩ := hb
  have hsame := (hrun 0).symm.trans (hrun' 0)
  rw [Option.some_inj, Prod.mk.injEq] at hsame
  rw [hsame.1]

theorem leadsTo_movML (ports : PortFuncs σ) {irq : Nat → Bool} {s : Sys σ} (h : s.AtBoundary)
    (hno : s.NotInterrupted irq) (hop : s.opcode = opcodeMovML) :
    s.LeadsTo ports irq (s.cpu.pc.word + 1) := by
  have hop' : s.opcode = 0x75#8 := hop
  refine ⟨(s.latchIrq (irq 0)).fetchOpcode.cycle ports (.movMemReg .l) 1, 1, fun fuel => ?_, ?_⟩
  · have hmicro : decode 0x75#8 = .movMemReg .l := rfl
    have hcycles : mCycles 0x75#8 = 1 := rfl
    rw [executeInstruction_of_fetch ports _ irq s h.mc hno, hop', hmicro, hcycles]
    simp [runCycles, cycle, exec, movMemReg, isInstructionExecuted, fetchOpcode, readInstrMovePC,
      Memory.cpuReadInstr_eq, latchIrq, stepMC, setMC, addCC, h.mc]
  · simp [cycle, exec, movMemReg, fetchOpcode, readInstrMovePC, Memory.cpuReadInstr_eq, latchIrq,
      stepMC, setMC, addCC, h.mc]

theorem leadsTo_nextPc (ports : PortFuncs σ) {irq : Nat → Bool} {s : Sys σ} (h : s.AtBoundary)
    (hno : s.NotInterrupted irq) (hhlt : s.opcode ≠ opcodeHlt) :
    s.LeadsTo ports irq (s.arch.nextPc (s.mem.env ports) s.operandLo s.operandHi
      (I8080.decode s.opcode)) := by
  by_cases hop : s.opcode = opcodeMovML
  · have hdecode : I8080.decode s.opcode = .mov .m .l := by rw [hop]; rfl
    rw [hdecode]
    exact leadsTo_movML ports h hno hop
  · obtain ⟨s', hrun, harch, -⟩ := matches_of_ne_movML ports h hno hhlt hop
    have hpc : s'.arch.pc = (s.arch.step (s.mem.env ports)).pc := congrArg _ harch
    rw [I8080.State.step, I8080.State.pc_exec] at hpc
    exact ⟨s', _, hrun, hpc⟩

/-- The claimed stop of a step-over: behind a call, else where the instruction leads. -/
def StepsOver (ports : PortFuncs σ) (irq : Nat → Bool) (s : Sys σ) : Prop :=
  match decode s.opcode with
  | .call _ => getStepOverAddr s.cpu s.mem = s.cpu.pc.word + 3
  | _ => s.LeadsTo ports irq (getStepOverAddr s.cpu s.mem)

structure Foreseen (s : Sys σ) : Prop where
  jmp : s.opcode = opcodeJmpAlias → Target.immediateWord s.cpu s.mem = s.cpu.pc.word + 1
  ret : s.opcode = opcodeRetAlias → Target.topWord s.cpu s.mem = s.cpu.pc.word + 1
  call : s.opcode ∉ opcodesCallAlias
  retIf : ∀ cc, decode s.opcode = .retCond cc → s.cpu.cond cc →
    Target.topWord s.cpu s.mem = s.cpu.pc.word + 1

theorem stepsOver_of_call {ports : PortFuncs σ} {irq : Nat → Bool} {s : Sys σ} {cc : Condition}
    (hcall : decode s.opcode = .call cc) :
    s.StepsOver ports irq ↔ getStepOverAddr s.cpu s.mem = s.cpu.pc.word + 3 := by
  rw [StepsOver, hcall]

theorem stepsOver_of_not_call {ports : PortFuncs σ} {irq : Nat → Bool} {s : Sys σ}
    (h : s.AtBoundary) (hno : s.NotInterrupted irq) (hhlt : s.opcode ≠ opcodeHlt)
    (hcall : ∀ cc, decode s.opcode ≠ .call cc) :
    s.StepsOver ports irq ↔ getStepOverAddr s.cpu s.mem =
      s.arch.nextPc (s.mem.env ports) s.operandLo s.operandHi (I8080.decode s.opcode) := by
  have hleads := leadsTo_nextPc ports h hno hhlt
  have hplain : s.StepsOver ports irq ↔ s.LeadsTo ports irq (getStepOverAddr s.cpu s.mem) := by
    rw [StepsOver]
    split
    · rename_i cc hcc
      exact absurd hcc (hcall cc)
    · exact Iff.rfl
  rw [hplain]
  constructor
  · exact fun haddr => haddr.unique hleads
  · exact fun heq => heq ▸ hleads

theorem address_target {ports : PortFuncs σ} {s : Sys σ} {i : I8080.Instr}
    (hcall : ∀ cc, microOf i ≠ .call cc) (hrst : ∀ n, microOf i ≠ .rst n)
    (hret : ∀ cc, microOf i ≠ .retCond cc) :
    (target i).address s.cpu s.mem =
      s.arch.nextPc (s.mem.env ports) s.operandLo s.operandHi i := by
  cases i with
  | call => exact absurd rfl (hcall .always)
  | callIf cc => exact absurd rfl (hcall (condOf cc))
  | rst n => exact absurd rfl (hrst n)
  | retIf cc => exact absurd rfl (hret (condOf cc))
  | jmpIf cc =>
      rw [target, Target.address, I8080.State.nextPc, cond_eq]
      rfl
  | _ => rfl

theorem foreseen_of_tabled {s : Sys σ} (h : ¬ Untabled s.opcode) :
    s.Foreseen ↔ ∀ cc, decode s.opcode = .retCond cc → s.cpu.cond cc →
      Target.topWord s.cpu s.mem = s.cpu.pc.word + 1 := by
  constructor
  · exact Foreseen.retIf
  · intro hret
    refine ⟨fun hop => ?_, fun hop => ?_, fun hop => ?_, hret⟩
    · exact absurd (.inr (.inl hop)) h
    · exact absurd (.inr (.inr (.inl hop))) h
    · exact absurd (.inr (.inr (.inr hop))) h

theorem foreseen_jmpAlias {s : Sys σ} (hop : s.opcode = opcodeJmpAlias) :
    s.Foreseen ↔ Target.immediateWord s.cpu s.mem = s.cpu.pc.word + 1 := by
  have hdecode : decode s.opcode = .jmp .always := by rw [hop]; rfl
  constructor
  · exact fun h => h.jmp hop
  · intro himm
    refine ⟨fun _ => himm, fun hret => ?_, ?_, fun cc hcc => ?_⟩
    · exact absurd (hop.symm.trans hret) (by decide)
    · rw [hop]
      decide
    · rw [hdecode] at hcc
      cases hcc

theorem foreseen_retAlias {s : Sys σ} (hop : s.opcode = opcodeRetAlias) :
    s.Foreseen ↔ Target.topWord s.cpu s.mem = s.cpu.pc.word + 1 := by
  have hdecode : decode s.opcode = .ret := by rw [hop]; rfl
  constructor
  · exact fun h => h.ret hop
  · intro htop
    refine ⟨fun hjmp => ?_, fun _ => htop, ?_, fun cc hcc => ?_⟩
    · exact absurd (hop.symm.trans hjmp) (by decide)
    · rw [hop]
      decide
    · rw [hdecode] at hcc
      cases hcc

/--
The step-over address is right exactly for the instructions that the tables foresee.
They take no undocumented opcode for what it is, and no conditional return.
-/
theorem stepsOver_iff_foreseen (ports : PortFuncs σ) (irq : Nat → Bool) (s : Sys σ)
    (h : s.AtBoundary) (hno : s.NotInterrupted irq) (hhlt : s.opcode ≠ opcodeHlt)
    (hrst : ∀ n, decode s.opcode ≠ .rst n) : s.StepsOver ports irq ↔ s.Foreseen := by
  have haddr := getStepOverAddr_eq s.cpu s.mem
  change _ = (predicted s.opcode).address s.cpu s.mem at haddr
  have hdecode := decode_eq s.opcode
  by_cases htabled : Untabled s.opcode
  · rcases htabled with ⟨n, hn⟩ | halias
    · rw [hn] at hdecode
      exact absurd hdecode (hrst n)
    · have hafter : getStepOverAddr s.cpu s.mem = s.cpu.pc.word + 1 := by
        rw [haddr, predicted_alias halias]
        rfl
      obtain ⟨hjmp, hret, hcall⟩ := decode_alias
      rcases halias with hop | hop | hop
      · have hnotCall : ∀ cc, decode s.opcode ≠ .call cc := by
          rw [hdecode, hop, hjmp]
          exact fun cc hcc => by cases hcc
        rw [stepsOver_of_not_call h hno hhlt hnotCall, foreseen_jmpAlias hop, hafter, hop, hjmp]
        exact eq_comm
      · have hnotCall : ∀ cc, decode s.opcode ≠ .call cc := by
          rw [hdecode, hop, hret]
          exact fun cc hcc => by cases hcc
        rw [stepsOver_of_not_call h hno hhlt hnotCall, foreseen_retAlias hop, hafter, hop, hret]
        exact eq_comm
      · rw [hcall _ hop] at hdecode
        rw [stepsOver_of_call hdecode, hafter]
        constructor
        · intro heq
          bv_omega
        · exact fun hforeseen => absurd hop hforeseen.call
  · rw [foreseen_of_tabled htabled]
    rw [predicted_of_tabled htabled] at haddr
    have hkind := callsOrReturns_decode s.opcode
    cases hi : I8080.decode s.opcode with
    | call =>
        rw [hi] at hdecode haddr
        rw [stepsOver_of_call hdecode, haddr]
        refine iff_of_true rfl fun cc hcc => ?_
        rw [hdecode] at hcc
        cases hcc
    | callIf cond =>
        rw [hi] at hdecode haddr
        rw [stepsOver_of_call hdecode, haddr]
        refine iff_of_true rfl fun cc hcc => ?_
        rw [hdecode] at hcc
        cases hcc
    | retIf cond =>
        rw [hi] at hdecode haddr
        have hnotCall : ∀ cc, decode s.opcode ≠ .call cc := by
          rw [hdecode]
          exact fun cc hcc => by cases hcc
        have hnext : s.cpu.pc.word + 1 = s.arch.nextPc (s.mem.env ports) s.operandLo s.operandHi
            (.retIf cond) ↔ (s.cpu.cond (condOf cond) →
              Target.topWord s.cpu s.mem = s.cpu.pc.word + 1) := by
          rw [I8080.State.nextPc, cond_eq]
          cases s.arch.holds cond with
          | false => exact iff_of_true rfl (fun hfalse => by cases hfalse)
          | true => exact ⟨fun heq _ => heq.symm, fun htop => (htop rfl).symm⟩
        rw [stepsOver_of_not_call h hno hhlt hnotCall, haddr, hi, hdecode]
        refine hnext.trans ⟨fun htop cc hcc => ?_, fun htop => htop _ rfl⟩
        cases hcc
        exact htop
    | rst n => exact absurd (.inl ⟨n, hi⟩) htabled
    | _ =>
        rw [hi] at hdecode haddr hkind
        have hnotCall : ∀ cc, decode s.opcode ≠ .call cc := by
          intro cc hcc
          rw [hcc] at hkind
          cases hkind
        have hnotRet : ∀ cc, decode s.opcode ≠ .retCond cc := by
          intro cc hcc
          rw [hcc] at hkind
          cases hkind
        rw [stepsOver_of_not_call h hno hhlt hnotCall, haddr, hi]
        rw [hdecode] at hnotCall hnotRet hrst
        refine iff_of_true (address_target hnotCall hrst hnotRet) fun cc hcc => ?_
        exact absurd (hdecode.symm.trans hcc) (hnotRet cc)

/-- `RET` at `0x0100` with the address `0x1234` on the stack, over otherwise cleared RAM. -/
def retState : Sys Unit where
  cpu := { CpuState.reset with pc := .ofWord 0x0100, sp := .ofWord 0x2000 }
  mem := .ofRam fun i =>
    if i.val = 0x0100 then 0xC9 else if i.val = 0x2000 then 0x34 else
      if i.val = 0x2001 then 0x12 else 0
  io := ()
  stores := []

/-- A witness: a return leads to the address that lies on the stack. -/
theorem stepsOver_ret :
    StepsOver ⟨fun _ io => (0, io), fun _ _ io => io⟩ (fun _ => false) retState ∧
      getStepOverAddr retState.cpu retState.mem = 0x1234 := by
  have hdecode : decode retState.opcode = .ret := by decide
  have hiff := stepsOver_iff_foreseen (⟨fun _ io => (0, io), fun _ _ io => io⟩ : PortFuncs Unit)
    (fun _ => false) retState ⟨rfl, rfl, by decide⟩ rfl (by decide)
    (by rw [hdecode]; exact fun _ h => by cases h)
  refine ⟨hiff.mpr ⟨?_, ?_, by decide, ?_⟩, by decide +kernel⟩
  · exact fun h => absurd h (by decide)
  · exact fun h => absurd h (by decide)
  · intro cc hcc
    rw [hdecode] at hcc
    cases hcc

/-- `RZ` with `Z` set at `0xC000`, over otherwise cleared RAM: it returns to address 0. -/
def returnState : Sys Unit where
  cpu := { CpuState.reset with pc := .ofWord 0xC000, f := { CpuState.reset.f with z := true } }
  mem := .ofRam fun i => if i.val = 0xC000 then 0xC8 else 0
  io := ()
  stores := []

theorem stepOver_misses_return :
    ¬ ∀ (ports : PortFuncs Unit) (irq : Nat → Bool) (s : Sys Unit), s.AtBoundary →
      s.NotInterrupted irq → s.opcode ≠ opcodeHlt → (∀ n, decode s.opcode ≠ .rst n) →
        s.StepsOver ports irq := by
  intro h
  have hboundary : returnState.AtBoundary := ⟨rfl, rfl, by decide⟩
  have hno : returnState.NotInterrupted fun _ => false := rfl
  have hdecode : decode returnState.opcode = .retCond .z := by decide
  have hsteps := h ⟨fun _ io => (0, io), fun _ _ io => io⟩ _ returnState hboundary hno (by decide)
    (by decide)
  rw [stepsOver_of_not_call hboundary hno (by decide)
    (fun cc hcc => by rw [hdecode] at hcc; cases hcc)] at hsteps
  revert hsteps
  decide

end Sys

end V6Emul
