import Mathlib.Tactic.NormNum.Prime
import V6Emul.Foundation.XorLinear

/-!
# The noise generator

A shift register of 17 bits with taps at bits 0 and 3.  It goes through every word but
zero before it repeats.
-/

namespace V6Emul

namespace SoundAY8910

def shiftNoise (noir : Nat) : Nat := (noir ^^^ (noir &&& 1) * 0x24000) >>> 1

theorem shiftNoise_eq (r : Nat) :
    shiftNoise r = r / 2 ^^^ if r % 2 = 1 then 0x12000 else 0 := by
  rw [shiftNoise, Nat.and_one_is_mod, Nat.shiftRight_xor_distrib, Nat.shiftRight_one]
  rcases Nat.mod_two_eq_zero_or_one r with hbit | hbit <;> simp [hbit]

theorem additive_shiftNoise : XorLinear.Additive shiftNoise := by
  intro x y
  simp only [shiftNoise_eq, Nat.xor_div_two, XorLinear.select_xor]
  ac_rfl

theorem shiftNoise_lt : ∀ r < 2 ^ 17, shiftNoise r < 2 ^ 17 := by
  intro r hr
  have hhalf : r / 2 < 2 ^ 17 := by omega
  rw [shiftNoise_eq]
  apply Nat.xor_lt_two_pow hhalf
  split <;> simp

theorem shiftNoise_eq_zero : ∀ r < 2 ^ 17, shiftNoise r = 0 → r = 0 := by
  intro r hr hzero
  rw [shiftNoise_eq, Nat.xor_eq_zero_iff] at hzero
  split at hzero <;> omega

theorem shiftNoise_pos : ∀ r < 2 ^ 17, 0 < r → 0 < shiftNoise r := by
  intro r hr hpos
  have hne := mt (shiftNoise_eq_zero r hr)
  omega

/-! ## Its period -/

theorem shiftNoise_ne {r : Nat} (hr : r < 2 ^ 17) (hpos : 0 < r) : shiftNoise r ≠ r := by
  intro hfix
  rw [shiftNoise_eq] at hfix
  rcases Nat.mod_two_eq_zero_or_one r with heven | hodd
  · simp [heven] at hfix
    omega
  · rw [if_pos hodd] at hfix
    have hstep : ∀ i, r.testBit i = (r.testBit (i + 1) ^^ (0x12000).testBit i) := by
      intro i
      have hbit := congrArg (fun x => x.testBit i) hfix
      simp only [Nat.testBit_xor, Nat.testBit_div_two] at hbit
      exact hbit.symm
    have hbit17 : r.testBit 17 = false := Nat.testBit_lt_two_pow hr
    have hbit13 : r.testBit 13 = false := by
      rw [hstep 13, hstep 14, hstep 15, hstep 16, hbit17]
      decide
    have hlow : ∀ i ≤ 13, r.testBit (13 - i) = false := by
      intro i hi
      induction i with
      | zero => exact hbit13
      | succ i ih =>
          have htap : ∀ j < 13, (0x12000).testBit j = false := by decide
          have hnext : 13 - (i + 1) + 1 = 13 - i := by omega
          rw [hstep, hnext, ih (by omega), htap _ (by omega), Bool.false_xor]
    have hzero := hlow 13 (Nat.le_refl 13)
    simp [hodd] at hzero

theorem square_shiftNoise :
    XorLinear.square^[17] (XorLinear.table shiftNoise 17) = XorLinear.table shiftNoise 17 := by
  decide +kernel

theorem prime_noisePeriod : Nat.Prime (2 ^ 17 - 1) := by
  have hvalue : 2 ^ 17 - 1 = 131071 := by decide
  rw [hvalue]
  norm_num

theorem minimalPeriod_shiftNoise {r : Nat} (hr : r < 2 ^ 17) (hpos : 0 < r) :
    Function.minimalPeriod shiftNoise r = 2 ^ 17 - 1 := by
  have hprime : Fact (Nat.Prime (2 ^ 17 - 1)) := ⟨prime_noisePeriod⟩
  have hperiod := XorLinear.isPeriodicPt additive_shiftNoise shiftNoise_lt shiftNoise_eq_zero
    square_shiftNoise hr
  exact Function.minimalPeriod_eq_prime hperiod (shiftNoise_ne hr hpos)

theorem exists_shiftNoise {r v : Nat} (hr : r < 2 ^ 17) (hpos : 0 < r) (hv : v < 2 ^ 17)
    (hv0 : 0 < v) : ∃ k < 2 ^ 17 - 1, shiftNoise^[k] r = v :=
  XorLinear.exists_iterate shiftNoise_lt shiftNoise_pos hr hpos (minimalPeriod_shiftNoise hr hpos)
    hv hv0

end SoundAY8910

end V6Emul
