import Mathlib.Algebra.NeZero

/-!
# Small index types and tables

The numerals of the index types that registers, buffers and drives are numbered with,
and reading a table of constants.
-/

namespace Indices

instance neZeroTwo : @NeZero Nat Zero.ofOfNat0 2 := ⟨Nat.succ_ne_zero 1⟩

instance neZeroThree : @NeZero Nat Zero.ofOfNat0 3 := ⟨Nat.succ_ne_zero 2⟩

instance neZeroFour : @NeZero Nat Zero.ofOfNat0 4 := ⟨Nat.succ_ne_zero 3⟩

instance neZeroEight : @NeZero Nat Zero.ofOfNat0 8 := ⟨Nat.succ_ne_zero 7⟩

theorem forall_getD {α : Type} {p : α → Prop} {table : List α} (h : ∀ x ∈ table, p x) (d : α)
    {i : Nat} (hi : i < table.length) : p (table.getD i d) := by
  rw [← List.getElem_eq_getD (h := hi) d]
  exact h _ (List.getElem_mem hi)

end Indices
