import V6Emul.Cpu.State

/-!
# Instruction helpers

Every helper performs the part of an instruction that belongs to the machine
cycle `MC`; the temporaries `TMP`, `ACT` and `WZ` carry values from one cycle to
the next.  The helpers are grouped and named as in the processor core.
-/

namespace V6Emul

/-! ## Flags -/

def parityTable : List Bool :=
  [true, false, false, true, false, true, true, false,
   false, true, true, false, true, false, false, true,
   false, true, true, false, true, false, false, true,
   true, false, false, true, false, true, true, false,
   false, true, true, false, true, false, false, true,
   true, false, false, true, false, true, true, false,
   true, false, false, true, false, true, true, false,
   false, true, true, false, true, false, false, true,
   false, true, true, false, true, false, false, true,
   true, false, false, true, false, true, true, false,
   true, false, false, true, false, true, true, false,
   false, true, true, false, true, false, false, true,
   true, false, false, true, false, true, true, false,
   false, true, true, false, true, false, false, true,
   false, true, true, false, true, false, false, true,
   true, false, false, true, false, true, true, false,
   false, true, true, false, true, false, false, true,
   true, false, false, true, false, true, true, false,
   true, false, false, true, false, true, true, false,
   false, true, true, false, true, false, false, true,
   true, false, false, true, false, true, true, false,
   false, true, true, false, true, false, false, true,
   false, true, true, false, true, false, false, true,
   true, false, false, true, false, true, true, false,
   true, false, false, true, false, true, true, false,
   false, true, true, false, true, false, false, true,
   false, true, true, false, true, false, false, true,
   true, false, false, true, false, true, true, false,
   false, true, true, false, true, false, false, true,
   true, false, false, true, false, true, true, false,
   true, false, false, true, false, true, true, false,
   false, true, true, false, true, false, false, true]

def getParity (val : Byte) : Bool := parityTable.getD val.toNat false

/-- The carry into bit `bitNo` during the calculation of `a + b + cy`. -/
def getCarry (bitNo : Nat) (a b : Byte) (cy : Bool) : Bool :=
  let result := a.toNat + b.toNat + cy.toNat
  let carry := result ^^^ a.toNat ^^^ b.toNat
  carry.testBit bitNo

def Flags.setZSP (f : Flags) (val : Byte) : Flags :=
  { f with z := val == 0#8, s := val.getLsbD 7, p := getParity val }

namespace Sys

variable {σ : Type}

/-! ## Memory helpers -/

def setReg (s : Sys σ) (r : Reg) (v : Byte) : Sys σ :=
  { s with cpu := s.cpu.setReg r v }

def setPair (s : Sys σ) (p : Pair) (v : RegPair) : Sys σ :=
  { s with cpu := s.cpu.setPair p v }

def readInstrMovePC (s : Sys σ) (byteNum : Fin 3) : Byte × Sys σ :=
  let (opcode, mem) := s.mem.cpuReadInstr s.cpu.pc.word .ram byteNum
  (opcode, { s with
    mem := mem
    cpu := { s.cpu with pc := .ofWord (s.cpu.pc.word + 1#16) } })

def readByte (s : Sys σ) (addr : Addr) (space : AddrSpace) (byteNum : Fin 2) :
    Byte × Sys σ :=
  let (value, mem) := s.mem.cpuRead addr space byteNum
  (value, { s with mem := mem })

def writeByte (s : Sys σ) (addr : Addr) (value : Byte) (space : AddrSpace)
    (byteNum : Fin 2) : Sys σ :=
  let globalAddr := s.mem.getGlobalAddr addr space
  { s with
    mem := s.mem.cpuWrite addr value space byteNum
    stores := s.stores ++ [⟨globalAddr, value, s.mem.ram.read globalAddr⟩] }

/-! ## Rotates -/

def rlc (s : Sys σ) : Sys σ :=
  let fc := s.cpu.a.getLsbD 7
  { s with cpu := { s.cpu with
    f := { s.cpu.f with c := fc }
    a := (s.cpu.a <<< 1) + (if fc then 1#8 else 0#8) } }

def rrc (s : Sys σ) : Sys σ :=
  let fc := s.cpu.a &&& 1#8 == 1#8
  { s with cpu := { s.cpu with
    f := { s.cpu.f with c := fc }
    a := (s.cpu.a >>> 1) ||| (if fc then 0x80#8 else 0#8) } }

def ral (s : Sys σ) : Sys σ :=
  let cy := s.cpu.f.c
  { s with cpu := { s.cpu with
    f := { s.cpu.f with c := s.cpu.a.getLsbD 7 }
    a := (s.cpu.a <<< 1) ||| (if cy then 1#8 else 0#8) } }

def rar (s : Sys σ) : Sys σ :=
  let cy := s.cpu.f.c
  { s with cpu := { s.cpu with
    f := { s.cpu.f with c := s.cpu.a &&& 1#8 == 1#8 }
    a := (s.cpu.a >>> 1) ||| (if cy then 0x80#8 else 0#8) } }

/-! ## Moves, loads and stores -/

def movRegReg (regDest regSrc : Reg) (s : Sys σ) : Sys σ :=
  match s.cpu.mc.toNat with
  | 0 => { s with cpu := { s.cpu with tmp := s.cpu.reg regSrc } }
  | 1 => s.setReg regDest s.cpu.tmp
  | _ => s

def loadRegPtr (regDest : Reg) (addr : Pair) (s : Sys σ) : Sys σ :=
  match s.cpu.mc.toNat with
  | 1 =>
      let (value, s) := s.readByte (s.cpu.pair addr).word .ram 0
      s.setReg regDest value
  | _ => s

def movMemReg (sss : Reg) (s : Sys σ) : Sys σ :=
  match s.cpu.mc.toNat with
  | 0 => { s with cpu := { s.cpu with tmp := s.cpu.reg sss } }
  | 1 => s.writeByte s.cpu.hl.word s.cpu.tmp .ram 0
  | _ => s

def mviRegData (regDest : Reg) (s : Sys σ) : Sys σ :=
  match s.cpu.mc.toNat with
  | 1 =>
      let (value, s) := s.readInstrMovePC 1
      s.setReg regDest value
  | _ => s

def fetchTmp (s : Sys σ) : Sys σ :=
  let (value, s) := s.readInstrMovePC 1
  { s with cpu := { s.cpu with tmp := value } }

/-- `Z = ReadInstrMovePC(1)` -/
def fetchZ (s : Sys σ) : Sys σ :=
  let (value, s) := s.readInstrMovePC 1
  { s with cpu := { s.cpu with wz := { s.cpu.wz with l := value } } }

/-- `W = ReadInstrMovePC(2)` -/
def fetchW (s : Sys σ) : Sys σ :=
  let (value, s) := s.readInstrMovePC 2
  { s with cpu := { s.cpu with wz := { s.cpu.wz with h := value } } }

/-- `WZ++` -/
def incWZ (s : Sys σ) : Sys σ :=
  { s with cpu := { s.cpu with wz := .ofWord (s.cpu.wz.word + 1#16) } }

/-- `SP++` -/
def incSP (s : Sys σ) : Sys σ :=
  { s with cpu := { s.cpu with sp := .ofWord (s.cpu.sp.word + 1#16) } }

/-- `SP--` -/
def decSP (s : Sys σ) : Sys σ :=
  { s with cpu := { s.cpu with sp := .ofWord (s.cpu.sp.word - 1#16) } }

def mviMemData (s : Sys σ) : Sys σ :=
  match s.cpu.mc.toNat with
  | 1 => s.fetchTmp
  | 2 => s.writeByte s.cpu.hl.word s.cpu.tmp .ram 0
  | _ => s

def lda (s : Sys σ) : Sys σ :=
  match s.cpu.mc.toNat with
  | 1 => s.fetchZ
  | 2 => s.fetchW
  | 3 =>
      let (value, s) := s.readByte s.cpu.wz.word .ram 0
      s.setReg .a value
  | _ => s

def sta (s : Sys σ) : Sys σ :=
  match s.cpu.mc.toNat with
  | 1 => s.fetchZ
  | 2 => s.fetchW
  | 3 => s.writeByte s.cpu.wz.word s.cpu.a .ram 0
  | _ => s

def stax (addr : Pair) (s : Sys σ) : Sys σ :=
  match s.cpu.mc.toNat with
  | 1 => s.writeByte (s.cpu.pair addr).word s.cpu.a .ram 0
  | _ => s

def lxi (regH regL : Reg) (s : Sys σ) : Sys σ :=
  match s.cpu.mc.toNat with
  | 1 =>
      let (value, s) := s.readInstrMovePC 1
      s.setReg regL value
  | 2 =>
      let (value, s) := s.readInstrMovePC 2
      s.setReg regH value
  | _ => s

def lhld (s : Sys σ) : Sys σ :=
  match s.cpu.mc.toNat with
  | 1 => s.fetchZ
  | 2 => s.fetchW
  | 3 =>
      let (value, s) := s.readByte s.cpu.wz.word .ram 0
      (s.setReg .l value).incWZ
  | 4 =>
      let (value, s) := s.readByte s.cpu.wz.word .ram 1
      s.setReg .h value
  | _ => s

def shld (s : Sys σ) : Sys σ :=
  match s.cpu.mc.toNat with
  | 1 => s.fetchZ
  | 2 => s.fetchW
  | 3 => (s.writeByte s.cpu.wz.word s.cpu.hl.l .ram 0).incWZ
  | 4 => s.writeByte s.cpu.wz.word s.cpu.hl.h .ram 1
  | _ => s

def sphl (s : Sys σ) : Sys σ :=
  match s.cpu.mc.toNat with
  | 1 => { s with cpu := { s.cpu with sp := s.cpu.hl } }
  | _ => s

def xchg (s : Sys σ) : Sys σ :=
  { s with cpu := { s.cpu with de := s.cpu.hl, hl := s.cpu.de, tmp := s.cpu.de.l } }

def xthl (s : Sys σ) : Sys σ :=
  match s.cpu.mc.toNat with
  | 1 =>
      let (value, s) := s.readByte s.cpu.sp.word .stack 0
      { s with cpu := { s.cpu with wz := { s.cpu.wz with l := value } } }
  | 2 =>
      let (value, s) := s.readByte (s.cpu.sp.word + 1#16) .stack 1
      { s with cpu := { s.cpu with wz := { s.cpu.wz with h := value } } }
  | 3 => s.writeByte s.cpu.sp.word s.cpu.hl.l .stack 1
  | 4 => s.writeByte (s.cpu.sp.word + 1#16) s.cpu.hl.h .stack 0
  | 5 => { s with cpu := { s.cpu with hl := s.cpu.wz } }
  | _ => s

def push (hb lb : Reg) (s : Sys σ) : Sys σ :=
  match s.cpu.mc.toNat with
  | 0 => s.decSP
  | 1 => s.writeByte s.cpu.sp.word (s.cpu.reg hb) .stack 0
  | 2 => s.decSP
  | 3 => s.writeByte s.cpu.sp.word (s.cpu.reg lb) .stack 1
  | _ => s

def pop (regH regL : Reg) (s : Sys σ) : Sys σ :=
  match s.cpu.mc.toNat with
  | 1 =>
      let (value, s) := s.readByte s.cpu.sp.word .stack 0
      (s.setReg regL value).incSP
  | 2 =>
      let (value, s) := s.readByte s.cpu.sp.word .stack 1
      (s.setReg regH value).incSP
  | _ => s

def popPSW (s : Sys σ) : Sys σ :=
  let s := s.pop .a .f
  s.setReg .f ((s.cpu.f.toByte &&& pswNulFlags) ||| pswInit)

/-! ## Arithmetic -/

/-- `ADD`: adds a value and a carry to a register. -/
def add (a b : Byte) (cy : Bool) (s : Sys σ) : Sys σ :=
  let res := a + b + (if cy then 1#8 else 0#8)
  { s with cpu := { s.cpu with
    a := res
    f := { s.cpu.f with c := getCarry 8 a b cy, ac := getCarry 4 a b cy }.setZSP res } }

def sub (a b : Byte) (cy : Bool) (s : Sys σ) : Sys σ :=
  let s := s.add a (~~~b) (!cy)
  { s with cpu := { s.cpu with f := { s.cpu.f with c := !s.cpu.f.c } } }

/-- `ACT = A` -/
def latchAct (s : Sys σ) : Sys σ :=
  { s with cpu := { s.cpu with act := s.cpu.a } }

/-- `TMP = ReadByte(HL)` -/
def readTmp (s : Sys σ) : Sys σ :=
  let (value, s) := s.readByte s.cpu.hl.word .ram 0
  { s with cpu := { s.cpu with tmp := value } }

def carryArg (useCarry : Bool) (s : Sys σ) : Bool := useCarry && s.cpu.f.c

/-- `ADD(ACT, TMP, cy)` -/
def addActTmp (cy : Bool) (s : Sys σ) : Sys σ := s.add s.cpu.act s.cpu.tmp cy

/-- `SUB(ACT, TMP, cy)` -/
def subActTmp (cy : Bool) (s : Sys σ) : Sys σ := s.sub s.cpu.act s.cpu.tmp cy

def memOp (op : Sys σ → Sys σ) (s : Sys σ) : Sys σ :=
  match s.cpu.mc.toNat with
  | 0 => s.latchAct
  | 1 => op s.readTmp
  | _ => s

def immOp (op : Sys σ → Sys σ) (s : Sys σ) : Sys σ :=
  match s.cpu.mc.toNat with
  | 0 => s.latchAct
  | 1 => op s.fetchTmp
  | _ => s

def addMem (cy : Bool) (s : Sys σ) : Sys σ := s.memOp (addActTmp cy)
def adi (cy : Bool) (s : Sys σ) : Sys σ := s.immOp (addActTmp cy)
def subMem (cy : Bool) (s : Sys σ) : Sys σ := s.memOp (subActTmp cy)
def sbi (cy : Bool) (s : Sys σ) : Sys σ := s.immOp (subActTmp cy)

/-- `DAD` adds the low bytes in cycle 1 and the high bytes in cycle 2. -/
def dad (regPair : Pair) (s : Sys σ) : Sys σ :=
  match s.cpu.mc.toNat with
  | 1 =>
      let act := (s.cpu.pair regPair).l
      let tmp := s.cpu.hl.l
      let res := act.toNat + tmp.toNat
      { s with cpu := { s.cpu with
        act := act, tmp := tmp
        f := { s.cpu.f with c := res.testBit 8 }
        hl := { s.cpu.hl with l := BitVec.ofNat 8 res } } }
  | 2 =>
      let act := (s.cpu.pair regPair).h
      let tmp := s.cpu.hl.h
      let result := act.toNat + tmp.toNat + (if s.cpu.f.c then 1 else 0)
      { s with cpu := { s.cpu with
        act := act, tmp := tmp
        f := { s.cpu.f with c := result.testBit 8 }
        hl := { s.cpu.hl with h := BitVec.ofNat 8 result } } }
  | _ => s

def incTmp (s : Sys σ) : Sys σ :=
  let tmp := s.cpu.tmp + 1#8
  { s with cpu := { s.cpu with
    tmp := tmp
    f := { s.cpu.f with ac := tmp &&& 0xF#8 == 0#8 }.setZSP tmp } }

def decTmp (s : Sys σ) : Sys σ :=
  let tmp := s.cpu.tmp - 1#8
  { s with cpu := { s.cpu with
    tmp := tmp
    f := { s.cpu.f with ac := !(tmp &&& 0xF#8 == 0xF#8) }.setZSP tmp } }

def inr (regDest : Reg) (s : Sys σ) : Sys σ :=
  match s.cpu.mc.toNat with
  | 0 => { s with cpu := { s.cpu with tmp := s.cpu.reg regDest } }.incTmp
  | 1 => s.setReg regDest s.cpu.tmp
  | _ => s

def inrMem (s : Sys σ) : Sys σ :=
  match s.cpu.mc.toNat with
  | 1 => s.readTmp.incTmp
  | 2 => s.writeByte s.cpu.hl.word s.cpu.tmp .ram 0
  | _ => s

def dcr (regDest : Reg) (s : Sys σ) : Sys σ :=
  match s.cpu.mc.toNat with
  | 0 => { s with cpu := { s.cpu with tmp := s.cpu.reg regDest } }.decTmp
  | 1 => s.setReg regDest s.cpu.tmp
  | _ => s

def dcrMem (s : Sys σ) : Sys σ :=
  match s.cpu.mc.toNat with
  | 1 => s.readTmp.decTmp
  | 2 => s.writeByte s.cpu.hl.word s.cpu.tmp .ram 0
  | _ => s

def inx (regPair : Pair) (s : Sys σ) : Sys σ :=
  match s.cpu.mc.toNat with
  | 0 => { s with cpu := { s.cpu with wz := .ofWord ((s.cpu.pair regPair).word + 1#16) } }
  | 1 => s.setPair regPair s.cpu.wz
  | _ => s

def dcx (regPair : Pair) (s : Sys σ) : Sys σ :=
  match s.cpu.mc.toNat with
  | 0 => { s with cpu := { s.cpu with wz := .ofWord ((s.cpu.pair regPair).word - 1#16) } }
  | 1 => s.setPair regPair s.cpu.wz
  | _ => s

def daa (s : Sys σ) : Sys σ :=
  let lsb := s.cpu.a &&& 0x0F#8
  let msb := s.cpu.a >>> 4
  let low := s.cpu.f.ac || lsb > 9#8
  let high := s.cpu.f.c || msb > 9#8 || (msb ≥ 9#8 && lsb > 9#8)
  let correction := (if low then 0x06#8 else 0#8) + (if high then 0x60#8 else 0#8)
  let cy := s.cpu.f.c || high
  let s := s.add s.cpu.a correction false
  { s with cpu := { s.cpu with f := { s.cpu.f with c := cy } } }

/-! ## Logic -/

def andActTmp (s : Sys σ) : Sys σ :=
  let res := s.cpu.act &&& s.cpu.tmp
  { s with cpu := { s.cpu with
    a := res
    f := { s.cpu.f with
      c := false
      ac := ((s.cpu.act ||| s.cpu.tmp) &&& 0x08#8) != 0#8 }.setZSP res } }

def xorActTmp (s : Sys σ) : Sys σ :=
  let res := s.cpu.act ^^^ s.cpu.tmp
  { s with cpu := { s.cpu with
    a := res
    f := { s.cpu.f with c := false, ac := false }.setZSP res } }

def orActTmp (s : Sys σ) : Sys σ :=
  let res := s.cpu.act ||| s.cpu.tmp
  { s with cpu := { s.cpu with
    a := res
    f := { s.cpu.f with c := false, ac := false }.setZSP res } }

/-- The flags of `CMP`, `CPI` on `ACT` and `TMP`; the difference is an `int`. -/
def cmpActTmp (s : Sys σ) : Sys σ :=
  let res : BitVec 32 := s.cpu.act.setWidth 32 - s.cpu.tmp.setWidth 32
  let res8 : Byte := res.setWidth 8
  { s with cpu := { s.cpu with
    f := { s.cpu.f with
      c := res.getLsbD 8
      ac := (~~~(s.cpu.act ^^^ res8 ^^^ s.cpu.tmp) &&& 0x10#8) == 0x10#8 }.setZSP res8 } }

/-- `ACT = A; TMP = sss` -/
def latchOperands (sss : Reg) (s : Sys σ) : Sys σ :=
  { s with cpu := { s.cpu with act := s.cpu.a, tmp := s.cpu.reg sss } }

def ana (sss : Reg) (s : Sys σ) : Sys σ := (s.latchOperands sss).andActTmp
def amaMem (s : Sys σ) : Sys σ := s.memOp andActTmp
def ani (s : Sys σ) : Sys σ := s.immOp andActTmp
def xra (sss : Reg) (s : Sys σ) : Sys σ := (s.latchOperands sss).xorActTmp
def xraMem (s : Sys σ) : Sys σ := s.memOp xorActTmp
def xri (s : Sys σ) : Sys σ := s.immOp xorActTmp
def ora (sss : Reg) (s : Sys σ) : Sys σ := (s.latchOperands sss).orActTmp
def oraMem (s : Sys σ) : Sys σ := s.memOp orActTmp
def ori (s : Sys σ) : Sys σ := s.immOp orActTmp
def cmp (sss : Reg) (s : Sys σ) : Sys σ := (s.latchOperands sss).cmpActTmp
def cmpMem (s : Sys σ) : Sys σ := s.memOp cmpActTmp
def cpi (s : Sys σ) : Sys σ := s.immOp cmpActTmp

def cma (s : Sys σ) : Sys σ := { s with cpu := { s.cpu with a := ~~~s.cpu.a } }

def stc (s : Sys σ) : Sys σ :=
  { s with cpu := { s.cpu with f := { s.cpu.f with c := true } } }

def cmc (s : Sys σ) : Sys σ :=
  { s with cpu := { s.cpu with f := { s.cpu.f with c := !s.cpu.f.c } } }

/-! ## Control flow -/

def setMC (s : Sys σ) (mc : BitVec 4) : Sys σ := { s with cpu := { s.cpu with mc := mc } }

/-- `PC = WZ` -/
def jumpWZ (s : Sys σ) : Sys σ := { s with cpu := { s.cpu with pc := s.cpu.wz } }

def jmp (condition : Bool) (s : Sys σ) : Sys σ :=
  match s.cpu.mc.toNat with
  | 1 => s.fetchZ
  | 2 => if condition then s.fetchW.jumpWZ else s.fetchW
  | _ => s

def pchl (s : Sys σ) : Sys σ :=
  match s.cpu.mc.toNat with
  | 1 => { s with cpu := { s.cpu with pc := s.cpu.hl } }
  | _ => s

/-- A call that is not taken sets `MC` to 5, so that the `MC` step ends the instruction. -/
def call (condition : Bool) (s : Sys σ) : Sys σ :=
  match s.cpu.mc.toNat with
  | 0 => if condition then s.decSP else s
  | 1 => s.fetchZ
  | 2 => s.fetchW
  | 3 =>
      if condition then (s.writeByte s.cpu.sp.word s.cpu.pc.h .stack 0).decSP
      else s.setMC 5
  | 4 => s.writeByte s.cpu.sp.word s.cpu.pc.l .stack 1
  | 5 => s.jumpWZ
  | _ => s

def rst (arg : Fin 8) (s : Sys σ) : Sys σ :=
  match s.cpu.mc.toNat with
  | 0 => s.decSP
  | 1 => (s.writeByte s.cpu.sp.word s.cpu.pc.h .stack 0).decSP
  | 2 =>
      { s with cpu := { s.cpu with wz := ⟨BitVec.ofNat 8 (arg.val <<< 3), 0⟩ } }.writeByte
        s.cpu.sp.word s.cpu.pc.l .stack 1
  | 3 => s.jumpWZ
  | _ => s

/-- `Z = ReadByte(SP, STACK, 0); SP++` -/
def popZ (s : Sys σ) : Sys σ :=
  let (value, s) := s.readByte s.cpu.sp.word .stack 0
  { s with cpu := { s.cpu with wz := { s.cpu.wz with l := value } } }.incSP

/-- `W = ReadByte(SP, STACK, 1); SP++` -/
def popW (s : Sys σ) : Sys σ :=
  let (value, s) := s.readByte s.cpu.sp.word .stack 1
  { s with cpu := { s.cpu with wz := { s.cpu.wz with h := value } } }.incSP

def ret (s : Sys σ) : Sys σ :=
  match s.cpu.mc.toNat with
  | 1 => s.popZ
  | 2 => s.popW.jumpWZ
  | _ => s

def retCond (condition : Bool) (s : Sys σ) : Sys σ :=
  match s.cpu.mc.toNat with
  | 1 => if condition then s else s.setMC 3
  | 2 => s.popZ
  | 3 => s.popW.jumpWZ
  | _ => s

/-! ## Ports, interrupts and halt -/

/-- `W = 0; Z = ReadInstrMovePC(1)` -/
def fetchPort (s : Sys σ) : Sys σ :=
  let (value, s) := s.readInstrMovePC 1
  { s with cpu := { s.cpu with wz := ⟨value, 0⟩ } }

def in_ (ports : PortFuncs σ) (s : Sys σ) : Sys σ :=
  match s.cpu.mc.toNat with
  | 1 => s.fetchPort
  | 2 =>
      let (value, io) := ports.input s.cpu.wz.l s.io
      { s with io := io, cpu := { s.cpu with a := value } }
  | _ => s

def out_ (ports : PortFuncs σ) (s : Sys σ) : Sys σ :=
  match s.cpu.mc.toNat with
  | 1 =>
      let s := s.fetchPort
      { s with io := ports.output s.cpu.wz.l s.cpu.a s.io }
  | _ => s

def di (s : Sys σ) : Sys σ := { s with cpu := { s.cpu with inte := false } }

def ei (s : Sys σ) : Sys σ :=
  { s with cpu := { s.cpu with inte := true, eiPending := true } }

/-- Loops in cycle 1 with `PC` at the `HLT` until an interruption is latched. -/
def hlt (s : Sys σ) : Sys σ :=
  match s.cpu.mc.toNat with
  | 0 => { s with cpu := { s.cpu with pc := .ofWord (s.cpu.pc.word - 1#16) } }
  | 1 =>
      let (_, s) := s.readInstrMovePC 0
      if s.cpu.iff then s
      else { s with cpu := { s.cpu with
        hlta := true, mc := s.cpu.mc - 1, pc := .ofWord (s.cpu.pc.word - 1#16) } }
  | _ => s

end Sys

end V6Emul
