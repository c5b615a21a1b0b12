import Mathlib.Data.BitVec
import Mathlib.Data.Fintype.Basic
import V6Emul.Foundation.Indices

/-!
# One-shot semantics of the Intel 8080

A whole instruction is one function from architectural state to architectural
state: no temporaries, no machine cycles.  The flags are five bits; the fixed
bits of the `F` byte exist only where it is pushed or popped.  Memory and ports
are parameters, and memory has a second access path for stack operations.

Instructions are decoded from the fields of the opcode `xxyyyzzz`, so the
undocumented aliases are cases of the field pattern and not table entries.
-/

namespace I8080

abbrev Byte := BitVec 8

abbrev Word := BitVec 16

structure Flags where
  s : Bool
  z : Bool
  ac : Bool
  p : Bool
  cy : Bool
  deriving DecidableEq, Repr

def Flags.toByte (f : Flags) : Byte :=
  BitVec.ofBoolListLE [f.cy, true, f.p, false, f.ac, false, f.z, f.s]

def Flags.ofByte (b : Byte) : Flags :=
  ⟨b.getLsbD 7, b.getLsbD 6, b.getLsbD 4, b.getLsbD 2, b.getLsbD 0⟩

structure State (M P : Type) where
  a : Byte
  f : Flags
  b : Byte
  c : Byte
  d : Byte
  e : Byte
  h : Byte
  l : Byte
  sp : Word
  pc : Word
  mem : M
  io : P

structure Env (M P : Type) where
  read : M → Word → Byte
  write : M → Word → Byte → M
  readStack : M → Word → Byte
  writeStack : M → Word → Byte → M
  input : Byte → P → Byte × P
  output : Byte → Byte → P → P

/-! ## Instructions -/

/-- The register codes `000` to `111`; `m` is the byte at `HL`. -/
inductive Operand where
  | b | c | d | e | h | l | m | a
  deriving DecidableEq, Repr

inductive Pair where
  | bc | de | hl | sp
  deriving DecidableEq, Repr

inductive StackPair where
  | bc | de | hl | psw
  deriving DecidableEq, Repr

inductive Cond where
  | nz | z | nc | c | po | pe | p | m
  deriving DecidableEq, Repr

inductive AluOp where
  | add | adc | sub | sbb | ana | xra | ora | cmp
  deriving DecidableEq, Repr

inductive Instr where
  | nop
  | lxi (rp : Pair)
  | dad (rp : Pair)
  | stax (rp : Pair)
  | ldax (rp : Pair)
  | shld | lhld | sta | lda
  | inx (rp : Pair)
  | dcx (rp : Pair)
  | inr (r : Operand)
  | dcr (r : Operand)
  | mvi (r : Operand)
  | rlc | rrc | ral | rar | daa | cma | stc | cmc
  | hlt
  | mov (dst src : Operand)
  | alu (op : AluOp) (r : Operand)
  | aluImm (op : AluOp)
  | jmp | call | ret
  | jmpIf (cond : Cond)
  | callIf (cond : Cond)
  | retIf (cond : Cond)
  | pop (rp : StackPair)
  | push (rp : StackPair)
  | rst (n : Fin 8)
  | pchl | sphl | xchg | xthl
  | in_ | out_ | ei | di
  deriving DecidableEq, Repr

def Instr.length : Instr → Nat
  | .lxi _ | .shld | .lhld | .sta | .lda | .jmp | .call | .jmpIf _ | .callIf _ => 3
  | .mvi _ | .aluImm _ | .in_ | .out_ => 2
  | _ => 1

def operand : Fin 8 → Operand
  | 0 => .b | 1 => .c | 2 => .d | 3 => .e | 4 => .h | 5 => .l | 6 => .m | 7 => .a

def pair : Fin 4 → Pair
  | 0 => .bc | 1 => .de | 2 => .hl | 3 => .sp

def stackPair : Fin 4 → StackPair
  | 0 => .bc | 1 => .de | 2 => .hl | 3 => .psw

def cond : Fin 8 → Cond
  | 0 => .nz | 1 => .z | 2 => .nc | 3 => .c | 4 => .po | 5 => .pe | 6 => .p | 7 => .m

def aluOp : Fin 8 → AluOp
  | 0 => .add | 1 => .adc | 2 => .sub | 3 => .sbb | 4 => .ana | 5 => .xra | 6 => .ora | 7 => .cmp

/-- The column `zzz` of the first quarter; `y = 2 * rp + q`. -/
def decodeFirst (y : Fin 8) (rp : Pair) (odd : Bool) : Fin 8 → Instr
  | 0 => .nop
  | 1 => if odd then .dad rp else .lxi rp
  | 2 =>
      match rp, odd with
      | .hl, false => .shld
      | .hl, true => .lhld
      | .sp, false => .sta
      | .sp, true => .lda
      | rp, false => .stax rp
      | rp, true => .ldax rp
  | 3 => if odd then .dcx rp else .inx rp
  | 4 => .inr (operand y)
  | 5 => .dcr (operand y)
  | 6 => .mvi (operand y)
  | 7 =>
      match y with
      | 0 => .rlc | 1 => .rrc | 2 => .ral | 3 => .rar
      | 4 => .daa | 5 => .cma | 6 => .stc | 7 => .cmc

def decodeLast (y : Fin 8) (p : Fin 4) (odd : Bool) : Fin 8 → Instr
  | 0 => .retIf (cond y)
  | 1 =>
      if odd then
        match p with
        | 0 => .ret | 1 => .ret | 2 => .pchl | 3 => .sphl
      else .pop (stackPair p)
  | 2 => .jmpIf (cond y)
  | 3 =>
      match y with
      | 0 => .jmp | 1 => .jmp | 2 => .out_ | 3 => .in_
      | 4 => .xthl | 5 => .xchg | 6 => .di | 7 => .ei
  | 4 => .callIf (cond y)
  | 5 => if odd then .call else .push (stackPair p)
  | 6 => .aluImm (aluOp y)
  | 7 => .rst y

def decode (opcode : Byte) : Instr :=
  let n := opcode.toNat
  let x := n / 64
  let y : Fin 8 := Fin.ofNat 8 (n / 8)
  let z : Fin 8 := Fin.ofNat 8 n
  let p : Fin 4 := Fin.ofNat 4 (n / 16)
  let odd := n / 8 % 2 == 1
  match x with
  | 0 => decodeFirst y (pair p) odd z
  | 1 => if y = 6 ∧ z = 6 then .hlt else .mov (operand y) (operand z)
  | 2 => .alu (aluOp y) (operand z)
  | _ => decodeLast y p odd z

/-! ## The arithmetic unit -/

def parity (v : Byte) : Bool :=
  !(v.getLsbD 0 ^^ v.getLsbD 1 ^^ v.getLsbD 2 ^^ v.getLsbD 3 ^^
    v.getLsbD 4 ^^ v.getLsbD 5 ^^ v.getLsbD 6 ^^ v.getLsbD 7)

def Flags.ofResult (v : Byte) (ac cy : Bool) : Flags :=
  ⟨v.msb, v == 0#8, ac, parity v, cy⟩

def addCarry (a b : Byte) (cy : Bool) : Byte × Flags :=
  let res := a + b + BitVec.ofNat 8 cy.toNat
  (res, .ofResult res (decide (16 ≤ a.toNat % 16 + b.toNat % 16 + cy.toNat))
    (decide (256 ≤ a.toNat + b.toNat + cy.toNat)))

/-- `AC` is set when the low nibbles need no borrow, `CY` when the bytes need one. -/
def subBorrow (a b : Byte) (cy : Bool) : Byte × Flags :=
  let res := a - b - BitVec.ofNat 8 cy.toNat
  (res, .ofResult res (decide (b.toNat % 16 + cy.toNat ≤ a.toNat % 16))
    (decide (a.toNat < b.toNat + cy.toNat)))

def alu (op : AluOp) (f : Flags) (a b : Byte) : Byte × Flags :=
  match op with
  | .add => addCarry a b false
  | .adc => addCarry a b f.cy
  | .sub => subBorrow a b false
  | .sbb => subBorrow a b f.cy
  | .ana => (a &&& b, .ofResult (a &&& b) (a.getLsbD 3 || b.getLsbD 3) false)
  | .xra => (a ^^^ b, .ofResult (a ^^^ b) false false)
  | .ora => (a ||| b, .ofResult (a ||| b) false false)
  | .cmp => (a, (subBorrow a b false).2)

/--
The two steps of the decimal adjustment: six is added to the low digit when it
exceeds nine or `AC` is set, then to the high digit of that sum when it exceeds
nine or a carry has left it.
-/
def decimalAdjust (a : Byte) (f : Flags) : Byte × Flags :=
  let low := if f.ac || decide (9 < a.toNat % 16) then 6 else 0
  let sum := a.toNat + low
  let cy := f.cy || decide (9 < sum / 16)
  let res := BitVec.ofNat 8 (if cy then sum + 0x60 else sum)
  (res, .ofResult res (decide (16 ≤ a.toNat % 16 + low)) cy)

/-! ## Execution -/

variable {M P : Type}

namespace State

def hl (s : State M P) : Word := s.h ++ s.l

def get (env : Env M P) (s : State M P) : Operand → Byte
  | .b => s.b | .c => s.c | .d => s.d | .e => s.e
  | .h => s.h | .l => s.l | .a => s.a
  | .m => env.read s.mem s.hl

def set (env : Env M P) (s : State M P) (r : Operand) (v : Byte) : State M P :=
  match r with
  | .b => { s with b := v }
  | .c => { s with c := v }
  | .d => { s with d := v }
  | .e => { s with e := v }
  | .h => { s with h := v }
  | .l => { s with l := v }
  | .a => { s with a := v }
  | .m => { s with mem := env.write s.mem s.hl v }

def getPair (s : State M P) : Pair → Word
  | .bc => s.b ++ s.c
  | .de => s.d ++ s.e
  | .hl => s.h ++ s.l
  | .sp => s.sp

def setPair (s : State M P) (rp : Pair) (v : Word) : State M P :=
  match rp with
  | .bc => { s with b := v.extractLsb' 8 8, c := v.extractLsb' 0 8 }
  | .de => { s with d := v.extractLsb' 8 8, e := v.extractLsb' 0 8 }
  | .hl => { s with h := v.extractLsb' 8 8, l := v.extractLsb' 0 8 }
  | .sp => { s with sp := v }

def holds (s : State M P) : Cond → Bool
  | .nz => !s.f.z | .z => s.f.z
  | .nc => !s.f.cy | .c => s.f.cy
  | .po => !s.f.p | .pe => s.f.p
  | .p => !s.f.s | .m => s.f.s

def pushBytes (env : Env M P) (s : State M P) (hi lo : Byte) : State M P :=
  { s with
    mem := env.writeStack (env.writeStack s.mem (s.sp - 1) hi) (s.sp - 2) lo
    sp := s.sp - 2 }

def pushPC (env : Env M P) (s : State M P) : State M P :=
  s.pushBytes env (s.pc.extractLsb' 8 8) (s.pc.extractLsb' 0 8)

def top (env : Env M P) (s : State M P) : Word :=
  env.readStack s.mem (s.sp + 1) ++ env.readStack s.mem s.sp

def ret (env : Env M P) (s : State M P) : State M P :=
  { s with pc := s.top env, sp := s.sp + 2 }

def pop (env : Env M P) (s : State M P) (rp : StackPair) : State M P :=
  let hi := env.readStack s.mem (s.sp + 1)
  let lo := env.readStack s.mem s.sp
  let s := { s with sp := s.sp + 2 }
  match rp with
  | .bc => { s with b := hi, c := lo }
  | .de => { s with d := hi, e := lo }
  | .hl => { s with h := hi, l := lo }
  | .psw => { s with a := hi, f := .ofByte lo }

def push (env : Env M P) (s : State M P) : StackPair → State M P
  | .bc => s.pushBytes env s.b s.c
  | .de => s.pushBytes env s.d s.e
  | .hl => s.pushBytes env s.h s.l
  | .psw => s.pushBytes env s.a s.f.toByte

def accumulate (s : State M P) (result : Byte × Flags) : State M P :=
  { s with a := result.1, f := result.2 }

def setKeepCY (env : Env M P) (s : State M P) (r : Operand) (result : Byte × Flags) :
    State M P :=
  { s with f := { result.2 with cy := s.f.cy } }.set env r result.1

def rotate (s : State M P) (res : Byte) (cy : Bool) : State M P :=
  { s with a := res, f := { s.f with cy := cy } }

def advance (s : State M P) (len : Word) : State M P := { s with pc := s.pc + len }

/--
Executes an instruction at `PC` whose operand bytes are `lo` and `hi`.  After
`HLT` the processor waits with `PC` behind the instruction.
-/
def exec (env : Env M P) (s : State M P) (lo hi : Byte) (i : Instr) : State M P :=
  let imm : Word := hi ++ lo
  match i with
  | .nop | .hlt | .ei | .di => s.advance 1
  | .lxi rp => (s.advance 3).setPair rp imm
  | .dad rp =>
      let sum := s.hl.toNat + (s.getPair rp).toNat
      { (s.advance 1).setPair .hl (BitVec.ofNat 16 sum) with
        f := { s.f with cy := decide (65536 ≤ sum) } }
  | .stax rp => { s.advance 1 with mem := env.write s.mem (s.getPair rp) s.a }
  | .ldax rp => { s.advance 1 with a := env.read s.mem (s.getPair rp) }
  | .shld => { s.advance 3 with mem := env.write (env.write s.mem imm s.l) (imm + 1) s.h }
  | .lhld => { s.advance 3 with l := env.read s.mem imm, h := env.read s.mem (imm + 1) }
  | .sta => { s.advance 3 with mem := env.write s.mem imm s.a }
  | .lda => { s.advance 3 with a := env.read s.mem imm }
  | .inx rp => (s.advance 1).setPair rp (s.getPair rp + 1)
  | .dcx rp => (s.advance 1).setPair rp (s.getPair rp - 1)
  | .inr r => (s.advance 1).setKeepCY env r (addCarry (s.get env r) 1 false)
  | .dcr r => (s.advance 1).setKeepCY env r (subBorrow (s.get env r) 1 false)
  | .mvi r => (s.advance 2).set env r lo
  | .rlc => (s.advance 1).rotate (s.a.rotateLeft 1) s.a.msb
  | .rrc => (s.advance 1).rotate (s.a.rotateRight 1) (s.a.getLsbD 0)
  | .ral => (s.advance 1).rotate (s.a.extractLsb' 0 7 ++ BitVec.ofBool s.f.cy) s.a.msb
  | .rar => (s.advance 1).rotate (BitVec.ofBool s.f.cy ++ s.a.extractLsb' 1 7) (s.a.getLsbD 0)
  | .daa => (s.advance 1).accumulate (decimalAdjust s.a s.f)
  | .cma => { s.advance 1 with a := ~~~s.a }
  | .stc => { s.advance 1 with f := { s.f with cy := true } }
  | .cmc => { s.advance 1 with f := { s.f with cy := !s.f.cy } }
  | .mov dst src => (s.advance 1).set env dst (s.get env src)
  | .alu op r => (s.advance 1).accumulate (I8080.alu op s.f s.a (s.get env r))
  | .aluImm op => (s.advance 2).accumulate (I8080.alu op s.f s.a lo)
  | .jmp => { s with pc := imm }
  | .call => { (s.advance 3).pushPC env with pc := imm }
  | .ret => s.ret env
  | .jmpIf cc => if s.holds cc then { s with pc := imm } else s.advance 3
  | .callIf cc => if s.holds cc then { (s.advance 3).pushPC env with pc := imm } else s.advance 3
  | .retIf cc => if s.holds cc then s.ret env else s.advance 1
  | .pop rp => (s.advance 1).pop env rp
  | .push rp => (s.advance 1).push env rp
  | .rst n => { (s.advance 1).pushPC env with pc := BitVec.ofNat 16 (8 * n.val) }
  | .pchl => { s with pc := s.hl }
  | .sphl => { s.advance 1 with sp := s.hl }
  | .xchg => { s.advance 1 with h := s.d, l := s.e, d := s.h, e := s.l }
  | .xthl =>
      { s.advance 1 with
        h := env.readStack s.mem (s.sp + 1)
        l := env.readStack s.mem s.sp
        mem := env.writeStack (env.writeStack s.mem s.sp s.l) (s.sp + 1) s.h }
  | .in_ =>
      let (v, io) := env.input lo s.io
      { s.advance 2 with a := v, io := io }
  | .out_ => { s.advance 2 with io := env.output lo s.a s.io }

def nextPc (env : Env M P) (s : State M P) (lo hi : Byte) : Instr → Word
  | .jmp | .call => hi ++ lo
  | .ret => s.top env
  | .pchl => s.hl
  | .rst n => BitVec.ofNat 16 (8 * n.val)
  | .jmpIf cc => if s.holds cc then hi ++ lo else s.pc + 3
  | .callIf cc => if s.holds cc then hi ++ lo else s.pc + 3
  | .retIf cc => if s.holds cc then s.top env else s.pc + 1
  | i => s.pc + BitVec.ofNat 16 i.length

theorem pc_set (env : Env M P) (s : State M P) (r : Operand) (v : Byte) :
    (s.set env r v).pc = s.pc := by
  cases r <;> rfl

theorem pc_setPair (s : State M P) (rp : Pair) (v : Word) : (s.setPair rp v).pc = s.pc := by
  cases rp <;> rfl

theorem pc_exec (env : Env M P) (s : State M P) (lo hi : Byte) (i : Instr) :
    (s.exec env lo hi i).pc = s.nextPc env lo hi i := by
  cases i with
  | lxi rp | inx rp | dcx rp => exact pc_setPair _ rp _
  | inr r | dcr r | mvi r | mov r _ => exact pc_set env _ r _
  | jmpIf cc | callIf cc | retIf cc =>
      rw [exec, nextPc]
      cases s.holds cc <;> rfl
  | push rp | pop rp => cases rp <;> rfl
  | _ => rfl

def step (env : Env M P) (s : State M P) : State M P :=
  s.exec env (env.read s.mem (s.pc + 1)) (env.read s.mem (s.pc + 2))
    (decode (env.read s.mem s.pc))

end State

end I8080
