import V6Emul.Cpu.Instr

/-!
# Decoding and the machine cycle

`decode` is the switch of `CpuI8080::Decode`: it names the helper that the
opcode in `IR` calls.  `executeMachineCycle` runs one machine cycle and
`executeInstruction` repeats it until the instruction is reported complete.
-/

namespace V6Emul

inductive Micro where
  | movRegReg (regDest regSrc : Reg)
  | loadRegPtr (regDest : Reg) (addr : Pair)
  | movMemReg (sss : Reg)
  | mviRegData (regDest : Reg)
  | mviMemData
  | lda
  | sta
  | stax (addr : Pair)
  | lxi (regH regL : Reg)
  | lhld
  | shld
  | sphl
  | xchg
  | xthl
  | push (hb lb : Reg)
  | pop (regH regL : Reg)
  | popPSW
  | add (b : Reg) (useCarry : Bool)
  | addMem (useCarry : Bool)
  | adi (useCarry : Bool)
  | sub (b : Reg) (useCarry : Bool)
  | subMem (useCarry : Bool)
  | sbi (useCarry : Bool)
  | dad (regPair : Pair)
  | inr (regDest : Reg)
  | inrMem
  | dcr (regDest : Reg)
  | dcrMem
  | inx (regPair : Pair)
  | dcx (regPair : Pair)
  | daa
  | cma
  | stc
  | cmc
  | rlc
  | rrc
  | ral
  | rar
  | ana (sss : Reg)
  | amaMem
  | ani
  | xra (sss : Reg)
  | xraMem
  | xri
  | ora (sss : Reg)
  | oraMem
  | ori
  | cmp (sss : Reg)
  | cmpMem
  | cpi
  | jmp (condition : Condition)
  | pchl
  | call (condition : Condition)
  | ret
  | retCond (condition : Condition)
  | rst (arg : Fin 8)
  | in_
  | out_
  | di
  | ei
  | hlt
  | nop
  | undocumented
  deriving DecidableEq, Repr

/-- The switch on `IR`; its `default` leaves the process. -/
def decode (ir : Byte) : Micro :=
  match ir.toNat with
  | 0x7F => .movRegReg .a .a
  | 0x78 => .movRegReg .a .b
  | 0x79 => .movRegReg .a .c
  | 0x7A => .movRegReg .a .d
  | 0x7B => .movRegReg .a .e
  | 0x7C => .movRegReg .a .h
  | 0x7D => .movRegReg .a .l
  | 0x47 => .movRegReg .b .a
  | 0x40 => .movRegReg .b .b
  | 0x41 => .movRegReg .b .c
  | 0x42 => .movRegReg .b .d
  | 0x43 => .movRegReg .b .e
  | 0x44 => .movRegReg .b .h
  | 0x45 => .movRegReg .b .l
  | 0x4F => .movRegReg .c .a
  | 0x48 => .movRegReg .c .b
  | 0x49 => .movRegReg .c .c
  | 0x4A => .movRegReg .c .d
  | 0x4B => .movRegReg .c .e
  | 0x4C => .movRegReg .c .h
  | 0x4D => .movRegReg .c .l
  | 0x57 => .movRegReg .d .a
  | 0x50 => .movRegReg .d .b
  | 0x51 => .movRegReg .d .c
  | 0x52 => .movRegReg .d .d
  | 0x53 => .movRegReg .d .e
  | 0x54 => .movRegReg .d .h
  | 0x55 => .movRegReg .d .l
  | 0x5F => .movRegReg .e .a
  | 0x58 => .movRegReg .e .b
  | 0x59 => .movRegReg .e .c
  | 0x5A => .movRegReg .e .d
  | 0x5B => .movRegReg .e .e
  | 0x5C => .movRegReg .e .h
  | 0x5D => .movRegReg .e .l
  | 0x67 => .movRegReg .h .a
  | 0x60 => .movRegReg .h .b
  | 0x61 => .movRegReg .h .c
  | 0x62 => .movRegReg .h .d
  | 0x63 => .movRegReg .h .e
  | 0x64 => .movRegReg .h .h
  | 0x65 => .movRegReg .h .l
  | 0x6F => .movRegReg .l .a
  | 0x68 => .movRegReg .l .b
  | 0x69 => .movRegReg .l .c
  | 0x6A => .movRegReg .l .d
  | 0x6B => .movRegReg .l .e
  | 0x6C => .movRegReg .l .h
  | 0x6D => .movRegReg .l .l
  | 0x7E => .loadRegPtr .a .hl
  | 0x46 => .loadRegPtr .b .hl
  | 0x4E => .loadRegPtr .c .hl
  | 0x56 => .loadRegPtr .d .hl
  | 0x5E => .loadRegPtr .e .hl
  | 0x66 => .loadRegPtr .h .hl
  | 0x6E => .loadRegPtr .l .hl
  | 0x77 => .movMemReg .a
  | 0x70 => .movMemReg .b
  | 0x71 => .movMemReg .c
  | 0x72 => .movMemReg .d
  | 0x73 => .movMemReg .e
  | 0x74 => .movMemReg .h
  | 0x75 => .movMemReg .l
  | 0x3E => .mviRegData .a
  | 0x06 => .mviRegData .b
  | 0x0E => .mviRegData .c
  | 0x16 => .mviRegData .d
  | 0x1E => .mviRegData .e
  | 0x26 => .mviRegData .h
  | 0x2E => .mviRegData .l
  | 0x36 => .mviMemData
  | 0x0A => .loadRegPtr .a .bc
  | 0x1A => .loadRegPtr .a .de
  | 0x3A => .lda
  | 0x02 => .stax .bc
  | 0x12 => .stax .de
  | 0x32 => .sta
  | 0x01 => .lxi .b .c
  | 0x11 => .lxi .d .e
  | 0x21 => .lxi .h .l
  | 0x31 => .lxi .sph .spl
  | 0x2A => .lhld
  | 0x22 => .shld
  | 0xF9 => .sphl
  | 0xEB => .xchg
  | 0xE3 => .xthl
  | 0xC5 => .push .b .c
  | 0xD5 => .push .d .e
  | 0xE5 => .push .h .l
  | 0xF5 => .push .a .f
  | 0xC1 => .pop .b .c
  | 0xD1 => .pop .d .e
  | 0xE1 => .pop .h .l
  | 0xF1 => .popPSW
  | 0x87 => .add .a false
  | 0x80 => .add .b false
  | 0x81 => .add .c false
  | 0x82 => .add .d false
  | 0x83 => .add .e false
  | 0x84 => .add .h false
  | 0x85 => .add .l false
  | 0x86 => .addMem false
  | 0xC6 => .adi false
  | 0x8F => .add .a true
  | 0x88 => .add .b true
  | 0x89 => .add .c true
  | 0x8A => .add .d true
  | 0x8B => .add .e true
  | 0x8C => .add .h true
  | 0x8D => .add .l true
  | 0x8E => .addMem true
  | 0xCE => .adi true
  | 0x97 => .sub .a false
  | 0x90 => .sub .b false
  | 0x91 => .sub .c false
  | 0x92 => .sub .d false
  | 0x93 => .sub .e false
  | 0x94 => .sub .h false
  | 0x95 => .sub .l false
  | 0x96 => .subMem false
  | 0xD6 => .sbi false
  | 0x9F => .sub .a true
  | 0x98 => .sub .b true
  | 0x99 => .sub .c true
  | 0x9A => .sub .d true
  | 0x9B => .sub .e true
  | 0x9C => .sub .h true
  | 0x9D => .sub .l true
  | 0x9E => .subMem true
  | 0xDE => .sbi true
  | 0x09 => .dad .bc
  | 0x19 => .dad .de
  | 0x29 => .dad .hl
  | 0x39 => .dad .sp
  | 0x3C => .inr .a
  | 0x04 => .inr .b
  | 0x0C => .inr .c
  | 0x14 => .inr .d
  | 0x1C => .inr .e
  | 0x24 => .inr .h
  | 0x2C => .inr .l
  | 0x34 => .inrMem
  | 0x3D => .dcr .a
  | 0x05 => .dcr .b
  | 0x0D => .dcr .c
  | 0x15 => .dcr .d
  | 0x1D => .dcr .e
  | 0x25 => .dcr .h
  | 0x2D => .dcr .l
  | 0x35 => .dcrMem
  | 0x03 => .inx .bc
  | 0x13 => .inx .de
  | 0x23 => .inx .hl
  | 0x33 => .inx .sp
  | 0x0B => .dcx .bc
  | 0x1B => .dcx .de
  | 0x2B => .dcx .hl
  | 0x3B => .dcx .sp
  | 0x27 => .daa
  | 0x2F => .cma
  | 0x37 => .stc
  | 0x3F => .cmc
  | 0x07 => .rlc
  | 0x0F => .rrc
  | 0x17 => .ral
  | 0x1F => .rar
  | 0xA7 => .ana .a
  | 0xA0 => .ana .b
  | 0xA1 => .ana .c
  | 0xA2 => .ana .d
  | 0xA3 => .ana .e
  | 0xA4 => .ana .h
  | 0xA5 => .ana .l
  | 0xA6 => .amaMem
  | 0xE6 => .ani
  | 0xAF => .xra .a
  | 0xA8 => .xra .b
  | 0xA9 => .xra .c
  | 0xAA => .xra .d
  | 0xAB => .xra .e
  | 0xAC => .xra .h
  | 0xAD => .xra .l
  | 0xAE => .xraMem
  | 0xEE => .xri
  | 0xB7 => .ora .a
  | 0xB0 => .ora .b
  | 0xB1 => .ora .c
  | 0xB2 => .ora .d
  | 0xB3 => .ora .e
  | 0xB4 => .ora .h
  | 0xB5 => .ora .l
  | 0xB6 => .oraMem
  | 0xF6 => .ori
  | 0xBF => .cmp .a
  | 0xB8 => .cmp .b
  | 0xB9 => .cmp .c
  | 0xBA => .cmp .d
  | 0xBB => .cmp .e
  | 0xBC => .cmp .h
  | 0xBD => .cmp .l
  | 0xBE => .cmpMem
  | 0xFE => .cpi
  | 0xC3 => .jmp .always
  | 0xCB => .jmp .always
  | 0xC2 => .jmp .nz
  | 0xCA => .jmp .z
  | 0xD2 => .jmp .nc
  | 0xDA => .jmp .c
  | 0xE2 => .jmp .po
  | 0xEA => .jmp .pe
  | 0xF2 => .jmp .p
  | 0xFA => .jmp .m
  | 0xE9 => .pchl
  | 0xCD => .call .always
  | 0xDD => .call .always
  | 0xED => .call .always
  | 0xFD => .call .always
  | 0xC4 => .call .nz
  | 0xCC => .call .z
  | 0xD4 => .call .nc
  | 0xDC => .call .c
  | 0xE4 => .call .po
  | 0xEC => .call .pe
  | 0xF4 => .call .p
  | 0xFC => .call .m
  | 0xC9 => .ret
  | 0xD9 => .ret
  | 0xC0 => .retCond .nz
  | 0xC8 => .retCond .z
  | 0xD0 => .retCond .nc
  | 0xD8 => .retCond .c
  | 0xE0 => .retCond .po
  | 0xE8 => .retCond .pe
  | 0xF0 => .retCond .p
  | 0xF8 => .retCond .m
  | 0xC7 => .rst 0
  | 0xCF => .rst 1
  | 0xD7 => .rst 2
  | 0xDF => .rst 3
  | 0xE7 => .rst 4
  | 0xEF => .rst 5
  | 0xF7 => .rst 6
  | 0xFF => .rst 7
  | 0xDB => .in_
  | 0xD3 => .out_
  | 0xF3 => .di
  | 0xFB => .ei
  | 0x76 => .hlt
  | 0x00 => .nop
  | 0x08 => .nop
  | 0x10 => .nop
  | 0x18 => .nop
  | 0x20 => .nop
  | 0x28 => .nop
  | 0x30 => .nop
  | 0x38 => .nop
  | _ => .undocumented

def mCyclesTable : List Nat :=
  [1, 3, 2, 2, 2, 2, 2, 1, 1, 3, 2, 2, 2, 2, 2, 1,
   1, 3, 2, 2, 2, 2, 2, 1, 1, 3, 2, 2, 2, 2, 2, 1,
   1, 3, 5, 2, 2, 2, 2, 1, 1, 3, 5, 2, 2, 2, 2, 1,
   1, 3, 4, 2, 3, 3, 3, 1, 1, 3, 4, 2, 2, 2, 2, 1,
   2, 2, 2, 2, 2, 2, 2, 2, 2, 2, 2, 2, 2, 2, 2, 2,
   2, 2, 2, 2, 2, 2, 2, 2, 2, 2, 2, 2, 2, 2, 2, 2,
   2, 2, 2, 2, 2, 2, 2, 2, 2, 2, 2, 2, 2, 2, 2, 2,
   2, 2, 2, 2, 2, 1, 2, 2, 2, 2, 2, 2, 2, 2, 2, 2,
   1, 1, 1, 1, 1, 1, 2, 1, 1, 1, 1, 1, 1, 1, 2, 1,
   1, 1, 1, 1, 1, 1, 2, 1, 1, 1, 1, 1, 1, 1, 2, 1,
   1, 1, 1, 1, 1, 1, 2, 1, 1, 1, 1, 1, 1, 1, 2, 1,
   1, 1, 1, 1, 1, 1, 2, 1, 1, 1, 1, 1, 1, 1, 2, 1,
   4, 3, 3, 3, 6, 4, 2, 4, 4, 3, 3, 3, 6, 6, 2, 4,
   4, 3, 3, 3, 6, 4, 2, 4, 4, 3, 3, 3, 6, 6, 2, 4,
   4, 3, 3, 6, 6, 4, 2, 4, 4, 2, 3, 1, 6, 6, 2, 4,
   4, 3, 3, 1, 6, 4, 2, 4, 4, 2, 3, 1, 6, 6, 2, 4]

def mCycles (opcode : Byte) : Nat := mCyclesTable.getD opcode.toNat 0

namespace Sys

variable {σ : Type}

/-- The part of one machine cycle that the helper performs. -/
def exec (ports : PortFuncs σ) (micro : Micro) (s : Sys σ) : Sys σ :=
  match micro with
  | .movRegReg regDest regSrc => s.movRegReg regDest regSrc
  | .loadRegPtr regDest addr => s.loadRegPtr regDest addr
  | .movMemReg sss => s.movMemReg sss
  | .mviRegData regDest => s.mviRegData regDest
  | .mviMemData => s.mviMemData
  | .lda => s.lda
  | .sta => s.sta
  | .stax addr => s.stax addr
  | .lxi regH regL => s.lxi regH regL
  | .lhld => s.lhld
  | .shld => s.shld
  | .sphl => s.sphl
  | .xchg => s.xchg
  | .xthl => s.xthl
  | .push hb lb => s.push hb lb
  | .pop regH regL => s.pop regH regL
  | .popPSW => s.popPSW
  | .add b useCarry => s.add s.cpu.a (s.cpu.reg b) (s.carryArg useCarry)
  | .addMem useCarry => s.addMem (s.carryArg useCarry)
  | .adi useCarry => s.adi (s.carryArg useCarry)
  | .sub b useCarry => s.sub s.cpu.a (s.cpu.reg b) (s.carryArg useCarry)
  | .subMem useCarry => s.subMem (s.carryArg useCarry)
  | .sbi useCarry => s.sbi (s.carryArg useCarry)
  | .dad regPair => s.dad regPair
  | .inr regDest => s.inr regDest
  | .inrMem => s.inrMem
  | .dcr regDest => s.dcr regDest
  | .dcrMem => s.dcrMem
  | .inx regPair => s.inx regPair
  | .dcx regPair => s.dcx regPair
  | .daa => s.daa
  | .cma => s.cma
  | .stc => s.stc
  | .cmc => s.cmc
  | .rlc => s.rlc
  | .rrc => s.rrc
  | .ral => s.ral
  | .rar => s.rar
  | .ana sss => s.ana sss
  | .amaMem => s.amaMem
  | .ani => s.ani
  | .xra sss => s.xra sss
  | .xraMem => s.xraMem
  | .xri => s.xri
  | .ora sss => s.ora sss
  | .oraMem => s.oraMem
  | .ori => s.ori
  | .cmp sss => s.cmp sss
  | .cmpMem => s.cmpMem
  | .cpi => s.cpi
  | .jmp condition => s.jmp (s.cpu.cond condition)
  | .pchl => s.pchl
  | .call condition => s.call (s.cpu.cond condition)
  | .ret => s.ret
  | .retCond condition => s.retCond (s.cpu.cond condition)
  | .rst arg => s.rst arg
  | .in_ => s.in_ ports
  | .out_ => s.out_ ports
  | .di => s.di
  | .ei => s.ei
  | .hlt => s.hlt
  | .nop => s
  | .undocumented => s

/-- `MC++; MC %= M_CYCLES[IR]` -/
def stepMC (len : Nat) (s : Sys σ) : Sys σ :=
  s.setMC (BitVec.ofNat 4 ((s.cpu.mc + 1).toNat % len))

def decodeCycle (ports : PortFuncs σ) (s : Sys σ) : Sys σ :=
  let s := s.exec ports (decode s.cpu.ir)
  s.stepMC (mCycles s.cpu.ir)

/-- `IFF |= _irq & INTE` -/
def latchIrq (irq : Bool) (s : Sys σ) : Sys σ :=
  { s with cpu := { s.cpu with iff := s.cpu.iff || (irq && s.cpu.inte) } }

def opcodeRst7 : Byte := 0xFF#8
def opcodeHlt : Byte := 0x76#8

def acceptInterrupt (s : Sys σ) : Sys σ :=
  { s with
    mem := s.mem.cpuInvokesRst7
    cpu := { s.cpu with inte := false, iff := false, hlta := false, ir := opcodeRst7 } }

/-- The opcode at `PC`, as the CPU reads it. -/
def opcode (s : Sys σ) : Byte := s.mem.getByte s.cpu.pc.word .ram

/-- `EI_PENDING = false; IR = ReadInstrMovePC(0)` -/
def fetchOpcode (s : Sys σ) : Sys σ :=
  let (opcode, s) := { s with cpu := { s.cpu with eiPending := false } }.readInstrMovePC 0
  { s with cpu := { s.cpu with ir := opcode } }

def beginInstruction (s : Sys σ) : Sys σ :=
  if s.cpu.iff && !s.cpu.eiPending then s.acceptInterrupt else s.fetchOpcode

/-- `CC += MACHINE_CC` -/
def addCC (s : Sys σ) : Sys σ := { s with cpu := { s.cpu with cc := s.cpu.cc + 4 } }

def executeMachineCycle (ports : PortFuncs σ) (irq : Bool) (s : Sys σ) : Sys σ :=
  let s := s.latchIrq irq
  let s := if s.cpu.mc = 0 then s.beginInstruction else s
  (s.decodeCycle ports).addCC

def isInstructionExecuted (s : Sys σ) : Bool := s.cpu.mc == 0 || s.cpu.hlta

/--
Repeats `executeMachineCycle` until `isInstructionExecuted`.  `irq n` is the
request line in cycle `n`; the result carries the number of cycles run, and
`none` means that `fuel` cycles were not enough.
-/
def executeInstruction (ports : PortFuncs σ) :
    Nat → (Nat → Bool) → Sys σ → Option (Sys σ × Nat)
  | 0, _, _ => none
  | fuel + 1, irq, s =>
      let s := s.executeMachineCycle ports (irq 0)
      if s.isInstructionExecuted then some (s, 1)
      else (executeInstruction ports fuel (fun n => irq (n + 1)) s).map
        fun (s, n) => (s, n + 1)

end Sys

end V6Emul
