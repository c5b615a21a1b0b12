import Mathlib.Data.Nat.Bitwise
import Mathlib.Dynamics.PeriodicPts.Lemmas

/-!
# Maps that respect exclusive or

Numbers below `2 ^ w` are vectors of `w` bits.  A map that respects exclusive or is given
by its values at the powers of two, and the table of `f ∘ f` comes from the table of `f`, so
that the table of `f^[2 ^ k]` takes `k` squarings.
-/

namespace XorLinear

def Additive (f : Nat → Nat) : Prop := ∀ x y, f (x ^^^ y) = f x ^^^ f y

theorem Additive.zero {f : Nat → Nat} (h : Additive f) : f 0 = 0 := by
  have hzero := h 0 0
  simpa using hzero

/-- The map with the value `m[i]` at `2 ^ i`. -/
def apply : List Nat → Nat → Nat
  | [], _ => 0
  | v :: rest, x => (if x % 2 = 1 then v else 0) ^^^ apply rest (x / 2)

theorem select_xor (v x y : Nat) :
    (if (x ^^^ y) % 2 = 1 then v else 0) =
      (if x % 2 = 1 then v else 0) ^^^ (if y % 2 = 1 then v else 0) := by
  have hodd : (x ^^^ y) % 2 = 1 ↔ ¬(x % 2 = 1 ↔ y % 2 = 1) := Nat.xor_mod_two_eq_one
  by_cases hx : x % 2 = 1 <;> by_cases hy : y % 2 = 1 <;>
    simp only [hodd, hx, hy] <;>
    simp

theorem additive_apply (m : List Nat) : Additive (apply m) := by
  induction m with
  | nil => simp [Additive, apply]
  | cons v rest ih =>
      intro x y
      have hrest := ih (x / 2) (y / 2)
      simp only [apply, select_xor, Nat.xor_div_two, hrest]
      ac_rfl

theorem apply_map {f : Nat → Nat} (hf : Additive f) (m : List Nat) (x : Nat) :
    apply (m.map f) x = f (apply m x) := by
  induction m generalizing x with
  | nil => simp [apply, hf.zero]
  | cons v rest ih =>
      rw [List.map_cons, apply, apply, hf, ih]
      split <;> simp [hf.zero]

/-! ## Iteration -/

def square (m : List Nat) : List Nat := m.map (apply m)

theorem apply_square (m : List Nat) : apply (square m) = (apply m)^[2] := by
  funext x
  exact apply_map (additive_apply m) m x

theorem apply_squares (m : List Nat) (k : Nat) : apply (square^[k] m) = (apply m)^[2 ^ k] := by
  induction k with
  | zero => rfl
  | succ k ih =>
      rw [Function.iterate_succ_apply', apply_square, ih, ← Function.iterate_mul, Nat.pow_succ]

/-! ## Tables -/

def table (f : Nat → Nat) (w : Nat) : List Nat := (List.range w).map fun i => f (2 ^ i)

theorem table_succ (f : Nat → Nat) (w : Nat) :
    table f (w + 1) = f 1 :: table (fun x => f (2 * x)) w := by
  simp [table, List.range_succ_eq_map, Function.comp_def, Nat.pow_succ, Nat.mul_comm]

theorem xor_low (x : Nat) : (x % 2) ^^^ 2 * (x / 2) = x := by
  apply Nat.eq_of_testBit_eq
  intro i
  cases i with
  | zero => simp [Nat.testBit_zero]
  | succ i =>
      have hbit : x % 2 / 2 = 0 := by omega
      simp [Nat.testBit_succ, Nat.xor_div_two, hbit]

theorem apply_table {f : Nat → Nat} (hf : Additive f) {w x : Nat} (hx : x < 2 ^ w) :
    apply (table f w) x = f x := by
  induction w generalizing f x with
  | zero =>
      obtain rfl : x = 0 := by simpa using hx
      simp [table, apply, hf.zero]
  | succ w ih =>
      have hdouble : Additive fun x => f (2 * x) := by
        intro x y
        have hxor : (x ^^^ y) <<< 1 = x <<< 1 ^^^ y <<< 1 := Nat.shiftLeft_xor_distrib
        simp only [Nat.shiftLeft_eq, Nat.pow_one, Nat.mul_comm _ 2] at hxor
        simp only [hxor, hf (2 * x) (2 * y)]
      have hlow : (if x % 2 = 1 then f 1 else 0) = f (x % 2) := by
        rcases Nat.mod_two_eq_zero_or_one x with hbit | hbit <;> simp [hbit, hf.zero]
      have hhalf : x / 2 < 2 ^ w := by omega
      rw [table_succ, apply, ih hdouble hhalf, hlow, ← hf, xor_low]

/-! ## Periods -/

variable {f : Nat → Nat} {w : Nat}

theorem iterate_lt (hlt : ∀ x < 2 ^ w, f x < 2 ^ w) {x : Nat} (hx : x < 2 ^ w) (n : Nat) :
    f^[n] x < 2 ^ w := by
  induction n with
  | zero => exact hx
  | succ n ih =>
      rw [Function.iterate_succ_apply']
      exact hlt _ ih

theorem iterate_eq (hf : Additive f) (hlt : ∀ x < 2 ^ w, f x < 2 ^ w) {x : Nat} (hx : x < 2 ^ w)
    (n : Nat) : f^[n] x = (apply (table f w))^[n] x := by
  induction n with
  | zero => rfl
  | succ n ih =>
      rw [Function.iterate_succ_apply', Function.iterate_succ_apply', ← ih,
        apply_table hf (iterate_lt hlt hx n)]

theorem isPeriodicPt (hf : Additive f) (hlt : ∀ x < 2 ^ w, f x < 2 ^ w)
    (hinj : ∀ x < 2 ^ w, f x = 0 → x = 0) (hcycle : square^[w] (table f w) = table f w) {x : Nat}
    (hx : x < 2 ^ w) : Function.IsPeriodicPt f (2 ^ w - 1) x := by
  have hpos : 0 < 2 ^ w := Nat.two_pow_pos w
  have hiterate : f^[2 ^ w] x = f x := by
    rw [iterate_eq hf hlt hx, ← apply_squares, hcycle, apply_table hf hx]
  have hsucc : f (f^[2 ^ w - 1] x) = f x := by
    rw [← Function.iterate_succ_apply' f, Nat.succ_eq_add_one, Nat.sub_add_cancel hpos, hiterate]
  have hzero : f (f^[2 ^ w - 1] x ^^^ x) = 0 := by
    rw [hf, hsucc, Nat.xor_self]
  have hsame := hinj _ (Nat.xor_lt_two_pow (iterate_lt hlt hx _) hx) hzero
  exact Nat.xor_eq_zero_iff.mp hsame

theorem exists_iterate (hlt : ∀ x < 2 ^ w, f x < 2 ^ w) (hpos : ∀ x < 2 ^ w, 0 < x → 0 < f x)
    {x : Nat} (hx : x < 2 ^ w) (hx0 : 0 < x)
    (hperiod : Function.minimalPeriod f x = 2 ^ w - 1) {v : Nat} (hv : v < 2 ^ w) (hv0 : 0 < v) :
    ∃ k < 2 ^ w - 1, f^[k] x = v := by
  have hiterate : ∀ n, 0 < f^[n] x := by
    intro n
    induction n with
    | zero => exact hx0
    | succ n ih =>
        rw [Function.iterate_succ_apply']
        exact hpos _ (iterate_lt hlt hx n) ih
  have hmaps : ∀ k ∈ Finset.range (2 ^ w - 1), f^[k] x ∈ Finset.Ico 1 (2 ^ w) := by
    intro k _
    exact Finset.mem_Ico.mpr ⟨hiterate k, iterate_lt hlt hx k⟩
  have hinj : Set.InjOn (fun k => f^[k] x) (Finset.range (2 ^ w - 1)) := by
    have horbit := Function.iterate_injOn_Iio_minimalPeriod (f := f) (x := x)
    rwa [hperiod, ← Finset.coe_range] at horbit
  have hcard : (Finset.Ico 1 (2 ^ w)).card ≤ (Finset.range (2 ^ w - 1)).card := by simp
  obtain ⟨k, hk, hkv⟩ := Finset.surj_on_of_inj_on_of_card_le (fun k _ => f^[k] x) hmaps
    (fun a b ha hb hab => hinj ha hb hab) hcard v (Finset.mem_Ico.mpr ⟨hv0, hv⟩)
  exact ⟨k, Finset.mem_range.mp hk, hkv.symm⟩

end XorLinear
