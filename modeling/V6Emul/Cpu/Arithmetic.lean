import V6Emul.Cpu.Instr
import V6Emul.Foundation.I8080

/-!
# The arithmetic of the helpers against the arithmetic unit

Each result and flag computation of the instruction helpers is identified with
the corresponding operation of `I8080`: carries with comparisons of sums,
subtraction by complement with borrows, byte-wise additions with word additions.
-/

namespace V6Emul

def Flags.arch (f : Flags) : I8080.Flags := ⟨f.s, f.z, f.ac, f.p, f.c⟩

@[simp] theorem Flags.arch_cy (f : Flags) : f.arch.cy = f.c := rfl

/-- Bit 1 of `F` is 1, bits 3 and 5 are 0. -/
def Flags.Fixed (f : Flags) : Prop := f.bit1 = true ∧ f.bit3 = false ∧ f.bit5 = false

instance (f : Flags) : Decidable f.Fixed := inferInstanceAs (Decidable (_ ∧ _ ∧ _))

theorem Flags.toByte_arch {f : Flags} (h : f.Fixed) : f.arch.toByte = f.toByte := by
  rcases f with ⟨c, bit1, p, bit3, ac, bit5, z, s⟩
  obtain ⟨rfl, rfl, rfl⟩ := h
  rfl

/-! ## Flags of a result -/

theorem getParity_eq (val : Byte) : getParity val = I8080.parity val := by
  revert val
  decide +kernel

def Flags.setArch (f : Flags) (g : I8080.Flags) : Flags :=
  { f with c := g.cy, p := g.p, ac := g.ac, z := g.z, s := g.s }

@[simp] theorem Flags.arch_setArch (f : Flags) (g : I8080.Flags) : (f.setArch g).arch = g := rfl

@[simp] theorem Flags.fixed_setArch (f : Flags) (g : I8080.Flags) :
    (f.setArch g).Fixed ↔ f.Fixed := Iff.rfl

theorem Flags.setZSP_eq (f : Flags) (val : Byte) :
    f.setZSP val = f.setArch (.ofResult val f.ac f.c) := by
  simp only [Flags.setZSP, Flags.setArch, I8080.Flags.ofResult, getParity_eq,
    BitVec.msb_eq_getLsbD_last]

/-! ## Carries -/

theorem getCarry_eq {bitNo : Nat} (h : bitNo ≤ 8) (a b : Byte) (cy : Bool) :
    getCarry bitNo a b cy =
      decide (2 ^ bitNo ≤ a.toNat % 2 ^ bitNo + b.toNat % 2 ^ bitNo + cy.toNat) := by
  have ha := a.isLt
  have hb := b.isLt
  have hcy := Bool.toNat_lt cy
  have hsum : (BitVec.ofNat 16 a.toNat + BitVec.ofNat 16 b.toNat +
      BitVec.setWidth 16 (BitVec.ofBool cy)).toNat = a.toNat + b.toNat + cy.toNat := by
    simp only [BitVec.toNat_add, BitVec.toNat_ofNat, BitVec.toNat_setWidth, BitVec.toNat_ofBool]
    omega
  have hbit := BitVec.getLsbD_add_add_bool (show bitNo < 16 by omega)
    (BitVec.ofNat 16 a.toNat) (BitVec.ofNat 16 b.toNat) cy
  have ha16 : a.toNat % 2 ^ 16 = a.toNat := Nat.mod_eq_of_lt (by omega)
  have hb16 : b.toNat % 2 ^ 16 = b.toNat := Nat.mod_eq_of_lt (by omega)
  simp only [BitVec.getLsbD, hsum, BitVec.carry, BitVec.toNat_ofNat, ha16, hb16] at hbit
  simp only [getCarry, Nat.testBit_xor, hbit]
  cases a.toNat.testBit bitNo <;> cases b.toNat.testBit bitNo <;> simp

theorem getCarry_four (a b : Byte) (cy : Bool) :
    getCarry 4 a b cy = decide (16 ≤ a.toNat % 16 + b.toNat % 16 + cy.toNat) :=
  getCarry_eq (by omega) a b cy

theorem getCarry_eight (a b : Byte) (cy : Bool) :
    getCarry 8 a b cy = decide (256 ≤ a.toNat + b.toNat + cy.toNat) := by
  have ha : a.toNat % 2 ^ 8 = a.toNat := Nat.mod_eq_of_lt a.isLt
  have hb : b.toNat % 2 ^ 8 = b.toNat := Nat.mod_eq_of_lt b.isLt
  have h := getCarry_eq (show 8 ≤ 8 by omega) a b cy
  rw [ha, hb] at h
  exact h

theorem ite_carry (cy : Bool) : (if cy then 1#8 else 0#8) = BitVec.ofNat 8 cy.toNat := by
  cases cy <;> rfl

/-! ## Addition and subtraction -/

namespace Sys

variable {σ : Type}

def accumulate (result : Byte × I8080.Flags) (s : Sys σ) : Sys σ :=
  { s with cpu := { s.cpu with a := result.1, f := s.cpu.f.setArch result.2 } }

theorem add_eq (a b : Byte) (cy : Bool) (s : Sys σ) :
    s.add a b cy = s.accumulate (I8080.addCarry a b cy) := by
  simp only [add, accumulate, I8080.addCarry, Flags.setZSP_eq, getCarry_four, getCarry_eight,
    ite_carry, Flags.setArch]

end Sys

theorem add_not_eq_sub (a b : Byte) (cy : Bool) :
    a + ~~~b + BitVec.ofNat 8 (!cy).toNat = a - b - BitVec.ofNat 8 cy.toNat := by
  cases cy <;> simp <;> bv_omega

theorem getCarry_not_four (a b : Byte) (cy : Bool) :
    getCarry 4 a (~~~b) (!cy) = decide (b.toNat % 16 + cy.toNat ≤ a.toNat % 16) := by
  rw [getCarry_four, decide_eq_decide, BitVec.toNat_not]
  have hb := b.isLt
  cases cy <;> simp <;> omega

theorem not_getCarry_not_eight (a b : Byte) (cy : Bool) :
    (!getCarry 8 a (~~~b) (!cy)) = decide (a.toNat < b.toNat + cy.toNat) := by
  rw [getCarry_eight, ← decide_not, decide_eq_decide, BitVec.toNat_not]
  have hb := b.isLt
  cases cy <;> simp <;> omega

theorem Sys.sub_eq {σ : Type} (a b : Byte) (cy : Bool) (s : Sys σ) :
    s.sub a b cy = s.accumulate (I8080.subBorrow a b cy) := by
  have hres := add_not_eq_sub a b cy
  have hac := getCarry_not_four a b cy
  have hcy := not_getCarry_not_eight a b cy
  simp only [sub, add, accumulate, I8080.subBorrow, ite_carry, ← hres, ← hac, ← hcy,
    Flags.setZSP_eq, Flags.setArch, I8080.Flags.ofResult]

theorem cmp_half_borrow (a b : Byte) :
    ((~~~(a ^^^ (a - b) ^^^ b) &&& 0x10#8) == 0x10#8) =
      decide (b.toNat % 16 ≤ a.toNat % 16) := by
  have hcarry := getCarry_not_four a b false
  have hbit : getCarry 4 a (~~~b) true = !((a ^^^ (a - b) ^^^ b).getLsbD 4) := by
    have hadd := BitVec.getLsbD_add_add_bool (show 4 < 8 by omega) a (~~~b) true
    have hsub : a + ~~~b + BitVec.setWidth 8 (BitVec.ofBool true) = a - b := by
      have h := add_not_eq_sub a b false
      simpa using h
    rw [hsub] at hadd
    have hc : BitVec.carry 4 a (~~~b) true = getCarry 4 a (~~~b) true := by
      rw [getCarry_four]
      rfl
    rw [hc] at hadd
    simp only [BitVec.getLsbD_xor, hadd, BitVec.getLsbD_not]
    cases a.getLsbD 4 <;> cases b.getLsbD 4 <;> simp
  have hmask : ∀ v : Byte, ((~~~v &&& 0x10#8) == 0x10#8) = !v.getLsbD 4 := by
    decide +kernel
  rw [hmask, ← hbit]
  simpa using hcarry

theorem cmp_borrow (a b : Byte) :
    (a.setWidth 32 - b.setWidth 32 : BitVec 32).getLsbD 8 = decide (a.toNat < b.toNat) := by
  have ha := a.isLt
  have hb := b.isLt
  have hnat : (a.setWidth 32 - b.setWidth 32 : BitVec 32).toNat =
      (2 ^ 32 - b.toNat + a.toNat) % 2 ^ 32 := by
    simp only [BitVec.toNat_sub, BitVec.toNat_setWidth]
    omega
  rw [BitVec.getLsbD, hnat, Nat.testBit_eq_decide_div_mod_eq, decide_eq_decide]
  omega

theorem cmp_difference (a b : Byte) :
    (a.setWidth 32 - b.setWidth 32 : BitVec 32).setWidth 8 = a - b := by
  bv_omega

/-! ## Increment, decrement, logic -/

theorem inc_half_carry (v : Byte) :
    (v + 1#8 &&& 0xF#8 == 0#8) = decide (16 ≤ v.toNat % 16 + 1) := by
  revert v
  decide +kernel

theorem dec_half_borrow (v : Byte) :
    (!(v - 1#8 &&& 0xF#8 == 0xF#8)) = decide (1 ≤ v.toNat % 16) := by
  revert v
  decide +kernel

theorem and_half_carry (a b : Byte) :
    (((a ||| b) &&& 0x08#8) != 0#8) = (a.getLsbD 3 || b.getLsbD 3) := by
  have hmask : ∀ v : Byte, ((v &&& 0x08#8) != 0#8) = v.getLsbD 3 := by
    decide +kernel
  rw [hmask, BitVec.getLsbD_or]

namespace Sys

variable {σ : Type}

theorem cmpActTmp_eq (s : Sys σ) :
    s.cmpActTmp = { s with cpu := { s.cpu with
      f := s.cpu.f.setArch (I8080.subBorrow s.cpu.act s.cpu.tmp false).2 } } := by
  simp only [cmpActTmp, Flags.setZSP_eq, cmp_difference, cmp_half_borrow, cmp_borrow,
    I8080.subBorrow, Flags.setArch, Bool.toNat_false, Nat.add_zero, BitVec.sub_zero]

theorem andActTmp_eq (s : Sys σ) :
    s.andActTmp = s.accumulate (I8080.alu .ana s.cpu.f.arch s.cpu.act s.cpu.tmp) := by
  simp only [andActTmp, accumulate, I8080.alu, Flags.setZSP_eq, and_half_carry, Flags.setArch]

theorem xorActTmp_eq (s : Sys σ) :
    s.xorActTmp = s.accumulate (I8080.alu .xra s.cpu.f.arch s.cpu.act s.cpu.tmp) := by
  simp only [xorActTmp, accumulate, I8080.alu, Flags.setZSP_eq, Flags.setArch]

theorem orActTmp_eq (s : Sys σ) :
    s.orActTmp = s.accumulate (I8080.alu .ora s.cpu.f.arch s.cpu.act s.cpu.tmp) := by
  simp only [orActTmp, accumulate, I8080.alu, Flags.setZSP_eq, Flags.setArch]

def setTmpKeepCY (result : Byte × I8080.Flags) (s : Sys σ) : Sys σ :=
  { s with cpu := { s.cpu with
    tmp := result.1
    f := s.cpu.f.setArch { result.2 with cy := s.cpu.f.c } } }

theorem incTmp_eq (s : Sys σ) :
    s.incTmp = s.setTmpKeepCY (I8080.addCarry s.cpu.tmp 1 false) := by
  simp [incTmp, setTmpKeepCY, I8080.addCarry, Flags.setZSP_eq, inc_half_carry, Flags.setArch,
    I8080.Flags.ofResult]

theorem decTmp_eq (s : Sys σ) :
    s.decTmp = s.setTmpKeepCY (I8080.subBorrow s.cpu.tmp 1 false) := by
  simp [decTmp, setTmpKeepCY, I8080.subBorrow, Flags.setZSP_eq, dec_half_borrow, Flags.setArch,
    I8080.Flags.ofResult]

end Sys

/-! ## Decimal adjustment and rotates -/

namespace Sys

variable {σ : Type}

def daaCorrection (a : Byte) (ac cy : Bool) : Byte × Bool :=
  let lsb := a &&& 0x0F#8
  let msb := a >>> 4
  let high := cy || msb > 9#8 || (msb ≥ 9#8 && lsb > 9#8)
  ((if ac || lsb > 9#8 then 0x06#8 else 0#8) + (if high then 0x60#8 else 0#8), cy || high)

theorem daaCorrection_eq (a : Byte) (ac cy : Bool) :
    let r := daaCorrection a ac cy
    let ref := I8080.decimalAdjust a ⟨false, false, ac, false, cy⟩
    (I8080.addCarry a r.1 false).1 = ref.1 ∧
      { (I8080.addCarry a r.1 false).2 with cy := r.2 } = ref.2 := by
  revert a ac cy
  decide +kernel

theorem daa_eq (s : Sys σ) :
    s.daa = s.accumulate (I8080.decimalAdjust s.cpu.a s.cpu.f.arch) := by
  have h := daaCorrection_eq s.cpu.a s.cpu.f.ac s.cpu.f.c
  have hstep : s.daa =
      s.accumulate ((I8080.addCarry s.cpu.a (daaCorrection s.cpu.a s.cpu.f.ac s.cpu.f.c).1 false).1,
        { (I8080.addCarry s.cpu.a (daaCorrection s.cpu.a s.cpu.f.ac s.cpu.f.c).1 false).2 with
          cy := (daaCorrection s.cpu.a s.cpu.f.ac s.cpu.f.c).2 }) := by
    simp only [daa, add_eq]
    rfl
  rw [hstep, h.1, h.2]
  rfl

theorem rotate_results (a : Byte) (cy : Bool) :
    ((a <<< 1) + if a.getLsbD 7 then 1#8 else 0#8) = a.rotateLeft 1 ∧
    ((a >>> 1) ||| if a &&& 1#8 == 1#8 then 0x80#8 else 0#8) = a.rotateRight 1 ∧
    ((a <<< 1) ||| if cy then 1#8 else 0#8) = a.extractLsb' 0 7 ++ BitVec.ofBool cy ∧
    ((a >>> 1) ||| if cy then 0x80#8 else 0#8) = BitVec.ofBool cy ++ a.extractLsb' 1 7 ∧
    (a &&& 1#8 == 1#8) = a.getLsbD 0 := by
  revert a cy
  decide +kernel

def rotate (res : Byte) (cy : Bool) (s : Sys σ) : Sys σ :=
  { s with cpu := { s.cpu with a := res, f := { s.cpu.f with c := cy } } }

theorem rlc_eq (s : Sys σ) : s.rlc = s.rotate (s.cpu.a.rotateLeft 1) s.cpu.a.msb := by
  simp only [rlc, rotate, (rotate_results s.cpu.a s.cpu.f.c).1, BitVec.msb_eq_getLsbD_last]

theorem rrc_eq (s : Sys σ) :
    s.rrc = s.rotate (s.cpu.a.rotateRight 1) (s.cpu.a.getLsbD 0) := by
  obtain ⟨-, hres, -, -, hbit⟩ := rotate_results s.cpu.a s.cpu.f.c
  simp only [rrc, rotate, hres]
  rw [hbit]

theorem ral_eq (s : Sys σ) :
    s.ral = s.rotate (s.cpu.a.extractLsb' 0 7 ++ BitVec.ofBool s.cpu.f.c) s.cpu.a.msb := by
  obtain ⟨-, -, hres, -, -⟩ := rotate_results s.cpu.a s.cpu.f.c
  simp only [ral, rotate, hres, BitVec.msb_eq_getLsbD_last]

theorem rar_eq (s : Sys σ) :
    s.rar = s.rotate (BitVec.ofBool s.cpu.f.c ++ s.cpu.a.extractLsb' 1 7)
      (s.cpu.a.getLsbD 0) := by
  obtain ⟨-, -, -, hres, hbit⟩ := rotate_results s.cpu.a s.cpu.f.c
  simp only [rar, rotate, hres, hbit]

end Sys

/-! ## Word arithmetic from bytes -/

theorem word_toNat (p : RegPair) : p.word.toNat = p.h.toNat * 256 + p.l.toNat := by
  have hl := p.l.isLt
  have h : p.word.toNat = p.h.toNat <<< 8 ||| p.l.toNat := BitVec.toNat_append p.h p.l
  rw [h, Nat.shiftLeft_eq, Nat.mul_comm, ← Nat.two_pow_add_eq_or_of_lt hl, Nat.mul_comm]

theorem testBit_eight {n : Nat} (h : n < 512) : n.testBit 8 = decide (256 ≤ n) := by
  rw [Nat.testBit_eq_decide_div_mod_eq, decide_eq_decide]
  omega

theorem dad_bytes (p q : RegPair) :
    let low := q.l.toNat + p.l.toNat
    let high := q.h.toNat + p.h.toNat + (if low.testBit 8 then 1 else 0)
    let sum := p.word.toNat + q.word.toNat
    BitVec.ofNat 8 low = (BitVec.ofNat 16 sum).extractLsb' 0 8 ∧
      BitVec.ofNat 8 high = (BitVec.ofNat 16 sum).extractLsb' 8 8 ∧
      high.testBit 8 = decide (65536 ≤ sum) := by
  have hpl := p.l.isLt
  have hph := p.h.isLt
  have hql := q.l.isLt
  have hqh := q.h.isLt
  simp only [word_toNat]
  rw [testBit_eight (by omega : q.l.toNat + p.l.toNat < 512)]
  split
  all_goals
    rename_i hcarry
    simp only [decide_eq_true_eq] at hcarry
    refine ⟨?_, ?_, ?_⟩
    · apply BitVec.eq_of_toNat_eq
      simp only [BitVec.toNat_ofNat, BitVec.extractLsb'_toNat, Nat.shiftRight_zero]
      omega
    · apply BitVec.eq_of_toNat_eq
      simp only [BitVec.toNat_ofNat, BitVec.extractLsb'_toNat, Nat.shiftRight_eq_div_pow]
      omega
    · rw [testBit_eight (by omega), decide_eq_decide]
      omega

end V6Emul
