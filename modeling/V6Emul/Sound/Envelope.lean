import V6Emul.Sound.Generators

/-!
# The shapes of the envelope

The four bits of register 13 choose a shape.  An envelope is a first ramp of 16 levels, and
then a level that it holds, or further ramps.
-/

namespace V6Emul

namespace SoundAY8910

structure Shape where
  attack : Bool
  alternate : Bool
  hold : Bool

def ramp (up : Bool) (i : Nat) : Nat := if up then i else 15 - i

namespace Shape

/-- Without `CONT` there is one ramp, and then silence. -/
def ofByte (val : Byte) : Shape :=
  if val.getLsbD 3 then ⟨val.getLsbD 2, val.getLsbD 1, val.getLsbD 0⟩
  else ⟨val.getLsbD 2, val.getLsbD 2, true⟩

def rising (shape : Shape) (number : Nat) : Bool :=
  shape.attack ^^ (shape.alternate && decide (number % 2 = 1))

def level (shape : Shape) (k : Nat) : Nat :=
  if k < 16 then ramp shape.attack k
  else if shape.hold then if shape.attack ^^ shape.alternate then 15 else 0
  else ramp (shape.rising (k / 16)) (k % 16)

end Shape

/-! ## Steps of the generator -/

theorem and_two_pow (x i : Nat) : x &&& 2 ^ i = if x.testBit i then 2 ^ i else 0 := by
  apply Nat.eq_of_testBit_eq
  intro j
  rw [Nat.testBit_and]
  by_cases hij : i = j
  · subst hij
    cases hbit : x.testBit i <;> simp
  · split <;> simp [hij]

theorem eStep_ramp {s : SoundAY8910} (h : s.envx < 16) :
    s.eStep = (ramp (s.ay13.testBit 2) s.envx, { s with envx := s.envx + 1 }) := by
  have hend : s.envx >>> 4 = 0 := Nat.shiftRight_eq_zero s.envx 4 h
  have hattack := and_two_pow s.ay13 2
  simp only [eStep, hend, ramp]
  cases hbit : s.ay13.testBit 2 <;> simp_all

theorem eStep_hold {s : SoundAY8910} (h : s.envx = 16) (hhold : s.ay13.testBit 0 = true) :
    s.eStep = (if s.ay13.testBit 2 ^^ s.ay13.testBit 1 then 15 else 0, s) := by
  have hfinal := and_two_pow (s.ay13 >>> 1 ^^^ s.ay13) 1
  have hset := and_two_pow s.ay13 0
  rw [Nat.testBit_xor, Nat.testBit_shiftRight] at hfinal
  simp only [eStep, h]
  cases hbit : s.ay13.testBit 2 <;> cases hbit' : s.ay13.testBit 1 <;> simp_all

theorem eStep_restart {s : SoundAY8910} (h : s.envx = 16) (hhold : s.ay13.testBit 0 = false) :
    s.eStep = (ramp (s.ay13.testBit 2 ^^ s.ay13.testBit 1) 0,
      { s with envx := 1, ay13 := s.ay13 ^^^ (s.ay13 <<< 1 &&& 4) }) := by
  have hset := and_two_pow s.ay13 0
  have hfour : Nat.testBit 4 2 = true := by decide
  have hattack := and_two_pow (s.ay13 ^^^ (s.ay13 <<< 1 &&& 4)) 2
  simp only [eStep, h, ramp]
  cases hbit : s.ay13.testBit 2 <;> cases hbit' : s.ay13.testBit 1 <;>
    simp_all

theorem testBit_turned (x i : Nat) :
    (x ^^^ (x <<< 1 &&& 4)).testBit i = (x.testBit i ^^ (decide (i = 2) && x.testBit 1)) := by
  have hpower : (4 : Nat) = 2 ^ 2 := rfl
  have hfour : Nat.testBit 4 i = decide (2 = i) := by
    rw [hpower, Nat.testBit_two_pow]
  rw [Nat.testBit_xor, Nat.testBit_and, Nat.testBit_shiftLeft, hfour]
  by_cases hi : i = 2
  · simp [hi]
  · simp [hi, Ne.symm hi]

/-! ## Levels -/

structure Begins (shape : Shape) (s : SoundAY8910) : Prop where
  hold : s.ay13.testBit 0 = shape.hold
  alternate : s.ay13.testBit 1 = shape.alternate
  attack : s.ay13.testBit 2 = shape.attack
  envx : s.envx = 0

structure At (shape : Shape) (k : Nat) (s : SoundAY8910) : Prop where
  hold : s.ay13.testBit 0 = shape.hold
  alternate : s.ay13.testBit 1 = shape.alternate
  attack : s.ay13.testBit 2 = if shape.hold then shape.attack else shape.rising (k / 16)
  envx : s.envx = if shape.hold ∧ 16 ≤ k then 16 else k % 16 + 1
  envv : s.envv = shape.level k

def eStepped (s : SoundAY8910) : SoundAY8910 := { s.eStep.2 with envv := s.eStep.1 }

theorem Shape.rising_succ (shape : Shape) (number : Nat) :
    shape.rising (number + 1) = (shape.rising number ^^ shape.alternate) := by
  have hodd : (number + 1) % 2 = 1 ↔ ¬ number % 2 = 1 := by omega
  by_cases hbit : number % 2 = 1 <;> simp [rising, hodd, hbit]

theorem Shape.level_ramp {shape : Shape} {k : Nat} (h : shape.hold = false ∨ k < 16) :
    shape.level k = ramp (if shape.hold then shape.attack else shape.rising (k / 16)) (k % 16) := by
  by_cases hfirst : k < 16
  · have hnumber : k / 16 = 0 := by omega
    simp [level, hfirst, hnumber, rising, Nat.mod_eq_of_lt hfirst]
  · have hhold : shape.hold = false := h.resolve_right hfirst
    simp [level, hfirst, hhold]

theorem Begins.eStepped {shape : Shape} {s : SoundAY8910} (h : s.Begins shape) :
    s.eStepped.At shape 0 := by
  have hstep := eStep_ramp (s := s) (by rw [h.envx]; decide)
  rw [h.envx, h.attack] at hstep
  simp only [SoundAY8910.eStepped, hstep]
  refine ⟨h.hold, h.alternate, ?_, ?_, ?_⟩ <;> simp [h.attack, Shape.rising, Shape.level]

theorem At.ramps {shape : Shape} {k : Nat} {s : SoundAY8910} (h : s.At shape k)
    (hinside : s.envx < 16) : s.eStepped.At shape (k + 1) := by
  have hstep := eStep_ramp hinside
  have hx := h.envx
  have hheld : shape.hold = false ∨ k + 1 < 16 := by
    cases hhold : shape.hold with
    | false => exact .inl rfl
    | true =>
        rw [hhold] at hx
        split at hx <;> simp_all
        omega
  have hcount : s.envx = k % 16 + 1 := by
    rw [hx, if_neg]
    rintro ⟨hhold, hlate⟩
    rcases hheld with hheld | hheld
    · simp [hhold] at hheld
    · omega
  have hnumber : (k + 1) / 16 = k / 16 := by omega
  have hindex : (k + 1) % 16 = s.envx := by omega
  have hnotHeld : ¬ (shape.hold = true ∧ 16 ≤ k + 1) := by
    rintro ⟨hhold, hlate⟩
    rcases hheld with hheld | hheld
    · simp [hhold] at hheld
    · omega
  have hlevel := Shape.level_ramp hheld
  simp only [SoundAY8910.eStepped, hstep]
  constructor
  · exact h.hold
  · exact h.alternate
  · rw [hnumber]
    exact h.attack
  · rw [if_neg hnotHeld, hindex]
  · rw [hlevel, hnumber, hindex, ← h.attack]

theorem At.holds {shape : Shape} {k : Nat} {s : SoundAY8910} (h : s.At shape k)
    (hended : s.envx = 16) (hhold : shape.hold = true) : s.eStepped.At shape (k + 1) := by
  have hstep := eStep_hold hended (h.hold.trans hhold)
  have hx := h.envx
  have hlate : 16 ≤ k + 1 := by
    rw [hended] at hx
    split at hx <;> omega
  have hlevel : shape.level (k + 1) = if shape.attack ^^ shape.alternate then 15 else 0 := by
    rw [Shape.level, if_neg (Nat.not_lt.mpr hlate), if_pos hhold]
  simp only [SoundAY8910.eStepped, hstep]
  refine ⟨h.hold, h.alternate, ?_, ?_, ?_⟩
  · rw [h.attack, if_pos hhold, if_pos hhold]
  · simp [hended, hhold, hlate]
  · rw [hlevel, h.attack, if_pos hhold, h.alternate]

theorem At.restarts {shape : Shape} {k : Nat} {s : SoundAY8910} (h : s.At shape k)
    (hended : s.envx = 16) (hhold : shape.hold = false) : s.eStepped.At shape (k + 1) := by
  have hstep := eStep_restart hended (h.hold.trans hhold)
  have hx := h.envx
  have hindex : (k + 1) % 16 = 0 := by
    simp only [hended, hhold, Bool.false_eq_true, false_and, if_false] at hx
    omega
  have hnumber : (k + 1) / 16 = k / 16 + 1 := by omega
  have hattack : s.ay13.testBit 2 = shape.rising (k / 16) := by simp [h.attack, hhold]
  have hlevel := @Shape.level_ramp shape (k + 1) (.inl hhold)
  simp only [SoundAY8910.eStepped, hstep]
  constructor
  · rw [testBit_turned, h.hold]
    simp
  · rw [testBit_turned, h.alternate]
    simp
  · rw [testBit_turned, hattack, h.alternate]
    simp [hhold, hnumber, Shape.rising_succ]
  · simp [hhold, hindex]
  · rw [hlevel]
    simp [hhold, hnumber, hindex, Shape.rising_succ, hattack, h.alternate]

theorem At.eStepped {shape : Shape} {k : Nat} {s : SoundAY8910} (h : s.At shape k) :
    s.eStepped.At shape (k + 1) := by
  by_cases hinside : s.envx < 16
  · exact h.ramps hinside
  · have hended : s.envx = 16 := by
      have hx := h.envx
      split at hx <;> omega
    cases hhold : shape.hold with
    | true => exact h.holds hended hhold
    | false => exact h.restarts hended hhold

def Behind (shape : Shape) (start : Nat) : Nat → SoundAY8910 → Prop
  | 0, s => s.Begins shape ∧ s.envv = start
  | k + 1, s => s.At shape k

theorem Begins.congr {shape : Shape} {s t : SoundAY8910} (h : s.Begins shape)
    (henvelope : t.envelope = s.envelope) : t.Begins shape := by
  simp only [envelope, Prod.mk.injEq] at henvelope
  obtain ⟨hx, hshape, -⟩ := henvelope
  constructor <;> simp only [hx, hshape]
  · exact h.hold
  · exact h.alternate
  · exact h.attack
  · exact h.envx

theorem At.congr {shape : Shape} {k : Nat} {s t : SoundAY8910} (h : s.At shape k)
    (henvelope : t.envelope = s.envelope) : t.At shape k := by
  simp only [envelope, Prod.mk.injEq] at henvelope
  obtain ⟨hx, hshape, hvalue⟩ := henvelope
  constructor <;> simp only [hx, hshape, hvalue]
  · exact h.hold
  · exact h.alternate
  · exact h.attack
  · exact h.envx
  · exact h.envv

theorem envelope_drives (shape : Shape) (start : Nat) :
    Divider.Drives clock envelopePeriod envc (Behind shape start) where
  period_clock s := by simp only [envelopePeriod, (sameRegisters_clock s).register]
  count_clock s := (envelope_clock s).1
  fires s k hk hfires := by
    have hclock : s.clock.envelope = s.eStepped.envelope := by
      rw [(envelope_clock s).2, if_pos hfires]
      rfl
    cases k with
    | zero => exact At.congr (Begins.eStepped hk.1) hclock
    | succ k => exact At.congr (At.eStepped hk) hclock
  waits s k hk hwaits := by
    have hclock : s.clock.envelope = s.envelope := by
      rw [(envelope_clock s).2, if_neg hwaits]
    cases k with
    | zero => exact ⟨hk.1.congr hclock, (congrArg (fun e => e.2.2) hclock).trans hk.2⟩
    | succ k => exact At.congr hk hclock

theorem testBit_shape (val : Byte) :
    let ay13 := if val &&& 0x0C#8 = 0 then 9 else if val &&& 0x0C#8 = 4 then 15 else val.toNat
    ay13.testBit 0 = (Shape.ofByte val).hold ∧ ay13.testBit 1 = (Shape.ofByte val).alternate ∧
      ay13.testBit 2 = (Shape.ofByte val).attack := by
  revert val
  decide +kernel

theorem begins_write {s : SoundAY8910} (hreg : s.ayreg = 13) (val : Byte) :
    (s.write 0 val).Begins (Shape.ofByte val) ∧ (s.write 0 val).envv = s.envv := by
  have hdata : (0 : Byte) ≠ 1 := by decide
  obtain ⟨hhold, halternate, hattack⟩ := testBit_shape val
  have hselected : (s.setAyr (s.ayreg.toFin.castAdd 3) (val &&& rmask s.ayreg).toNat).ayreg = 13 :=
    hreg
  rw [write, if_neg hdata, setShape, if_pos hselected]
  exact ⟨⟨hhold, halternate, hattack, rfl⟩, rfl⟩

/--
After a write to register 13 the envelope follows the shape for ever, a level for each
period of registers 11 and 12, whatever the tones and the noise do.
-/
theorem envelope_follows_shape {s : SoundAY8910} (hreg : s.ayreg = 13) (val : Byte) (n : Nat) :
    (clock^[n] (s.write 0 val)).envv =
      match Divider.fired (s.write 0 val).envelopePeriod (s.write 0 val).envc n with
      | 0 => s.envv
      | k + 1 => (Shape.ofByte val).level k := by
  have hstart : Behind (Shape.ofByte val) s.envv 0 (s.write 0 val) := begins_write hreg val
  have hbehind := (envelope_drives (Shape.ofByte val) s.envv).iterate n hstart
  rw [Nat.zero_add] at hbehind
  cases hfired : Divider.fired (s.write 0 val).envelopePeriod (s.write 0 val).envc n with
  | zero =>
      rw [hfired] at hbehind
      exact hbehind.2
  | succ k =>
      rw [hfired] at hbehind
      exact hbehind.envv

/-- A saw tooth with a level on every second clock, in its second ramp. -/
theorem envelope_follows_saw :
    (clock^[40] (((((init.write 1 11).write 0 1).write 1 13)).write 0 8)).envv = 12 :=
  (envelope_follows_shape rfl 8 40).trans (by decide)

end SoundAY8910

end V6Emul
