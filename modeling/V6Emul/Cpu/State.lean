import V6Emul.Memory

/-!
# The state of the KR580VM80A

The register file of the Intel 8080 with the temporaries `TMP`, `ACT` and `WZ`
that an instruction uses between its machine cycles, the interrupt flip-flops
and the machine-cycle counter `MC`.
-/

namespace V6Emul

/-! ## Register pairs and flags -/

structure RegPair where
  l : Byte
  h : Byte
  deriving DecidableEq, Repr

namespace RegPair

def word (p : RegPair) : Addr := p.h ++ p.l

def ofWord (w : Addr) : RegPair := ⟨w.extractLsb' 0 8, w.extractLsb' 8 8⟩

@[simp] theorem word_ofWord (w : Addr) : (ofWord w).word = w :=
  BitVec.extractLsb'_append_extractLsb'

@[simp] theorem word_mk (l h : Byte) : (RegPair.mk l h).word = h ++ l := rfl

@[simp] theorem ofWord_append (h l : Byte) : ofWord (h ++ l : Addr) = ⟨l, h⟩ := by
  simp only [ofWord, RegPair.mk.injEq]
  exact ⟨BitVec.extractLsb'_append_eq_right, BitVec.extractLsb'_append_eq_left⟩

@[simp] theorem ofWord_word (p : RegPair) : ofWord p.word = p := by
  cases p
  simp

end RegPair

structure Flags where
  c : Bool
  bit1 : Bool
  p : Bool
  bit3 : Bool
  ac : Bool
  bit5 : Bool
  z : Bool
  s : Bool
  deriving DecidableEq, Repr

namespace Flags

def toByte (f : Flags) : Byte :=
  BitVec.ofBoolListLE [f.c, f.bit1, f.p, f.bit3, f.ac, f.bit5, f.z, f.s]

def ofByte (b : Byte) : Flags :=
  ⟨b.getLsbD 0, b.getLsbD 1, b.getLsbD 2, b.getLsbD 3,
    b.getLsbD 4, b.getLsbD 5, b.getLsbD 6, b.getLsbD 7⟩

@[simp] theorem ofByte_toByte (f : Flags) : ofByte f.toByte = f := by
  rcases f with ⟨c, b1, p, b3, ac, b5, z, s⟩
  revert c b1 p b3 ac b5 z s
  decide

@[simp] theorem toByte_ofByte (b : Byte) : (ofByte b).toByte = b := by
  revert b
  decide +kernel

end Flags

/-! ## The processor -/

/-- `CpuI8080::State`: the clock counter, the registers and the `Int` byte. -/
structure CpuState where
  cc : BitVec 64
  pc : RegPair
  sp : RegPair
  a : Byte
  f : Flags
  bc : RegPair
  de : RegPair
  hl : RegPair
  ir : Byte
  tmp : Byte
  act : Byte
  wz : RegPair
  /-- index of the machine cycle of the current instruction -/
  mc : BitVec 4
  inte : Bool
  /-- set by the 50 Hz interruption timer, on until an interruption call -/
  iff : Bool
  hlta : Bool
  eiPending : Bool
  deriving DecidableEq, Repr

def pswInit : Byte := 0b00000010#8

def pswNulFlags : Byte := ~~~0b00101000#8

def CpuState.reset : CpuState where
  cc := 0
  pc := .ofWord 0
  sp := .ofWord 0
  a := 0
  f := .ofByte pswInit
  bc := .ofWord 0
  de := .ofWord 0
  hl := .ofWord 0
  ir := 0
  tmp := 0
  act := 0
  wz := .ofWord 0
  mc := 0
  inte := false
  iff := false
  hlta := false
  eiPending := false

/-- The callbacks of the `IN` and `OUT` instructions over the state of the devices. -/
structure PortFuncs (σ : Type) where
  input : Byte → σ → Byte × σ
  output : Byte → Byte → σ → σ

/--
The processor with the memory and the devices it is wired to.  `stores` is a
history variable: the bytes stored so far, oldest first.  Nothing reads it.
-/
structure Sys (σ : Type) where
  cpu : CpuState
  mem : Memory
  io : σ
  stores : List Store

def Sys.ofReset {σ : Type} (mem : Memory) (io : σ) : Sys σ := ⟨.reset, mem, io, []⟩

/-! ## Operands -/

inductive Reg where
  | a | f | b | c | d | e | h | l | sph | spl
  deriving DecidableEq, Repr

inductive Pair where
  | bc | de | hl | sp
  deriving DecidableEq, Repr

inductive Condition where
  | always | nz | z | nc | c | po | pe | p | m
  deriving DecidableEq, Repr

namespace CpuState

def reg (s : CpuState) : Reg → Byte
  | .a => s.a
  | .f => s.f.toByte
  | .b => s.bc.h
  | .c => s.bc.l
  | .d => s.de.h
  | .e => s.de.l
  | .h => s.hl.h
  | .l => s.hl.l
  | .sph => s.sp.h
  | .spl => s.sp.l

def setReg (s : CpuState) (r : Reg) (v : Byte) : CpuState :=
  match r with
  | .a => { s with a := v }
  | .f => { s with f := .ofByte v }
  | .b => { s with bc := { s.bc with h := v } }
  | .c => { s with bc := { s.bc with l := v } }
  | .d => { s with de := { s.de with h := v } }
  | .e => { s with de := { s.de with l := v } }
  | .h => { s with hl := { s.hl with h := v } }
  | .l => { s with hl := { s.hl with l := v } }
  | .sph => { s with sp := { s.sp with h := v } }
  | .spl => { s with sp := { s.sp with l := v } }

def pair (s : CpuState) : Pair → RegPair
  | .bc => s.bc
  | .de => s.de
  | .hl => s.hl
  | .sp => s.sp

def setPair (s : CpuState) (p : Pair) (v : RegPair) : CpuState :=
  match p with
  | .bc => { s with bc := v }
  | .de => { s with de := v }
  | .hl => { s with hl := v }
  | .sp => { s with sp := v }

def cond (s : CpuState) : Condition → Bool
  | .always => true
  | .nz => !s.f.z
  | .z => s.f.z
  | .nc => !s.f.c
  | .c => s.f.c
  | .po => !s.f.p
  | .pe => s.f.p
  | .p => !s.f.s
  | .m => s.f.s

end CpuState

end V6Emul
