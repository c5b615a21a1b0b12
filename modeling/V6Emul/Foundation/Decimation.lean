import Mathlib.Algebra.BigOperators.Group.List.Basic

/-!
# Sums of blocks

A list that is summed in blocks of one length.  When it grows by an element, the element is
added to what follows the last full block, or fills that block.
-/

namespace Decimation

variable {α : Type}

/-! ## The last block -/

def rest (rate : Nat) (xs : List α) : List α := xs.drop (rate * (xs.length / rate))

theorem rest_length (rate : Nat) (xs : List α) : (rest rate xs).length = xs.length % rate := by
  have hdiv := Nat.div_add_mod xs.length rate
  rw [rest, List.length_drop]
  omega

section

variable {rate : Nat} {xs : List α} (x : α)

theorem length_snoc_div (h : (rest rate xs).length + 1 < rate) :
    (xs ++ [x]).length / rate = xs.length / rate := by
  have hdiv := Nat.div_add_mod xs.length rate
  rw [rest_length] at h
  rw [List.length_append, List.length_singleton]
  refine Nat.div_eq_of_lt_le ?_ ?_
  · rw [Nat.mul_comm]
    omega
  · rw [Nat.succ_mul, Nat.mul_comm]
    omega

theorem length_snoc_div_full (h : (rest rate xs).length + 1 = rate) :
    (xs ++ [x]).length / rate = xs.length / rate + 1 := by
  have hdiv := Nat.div_add_mod xs.length rate
  rw [rest_length] at h
  have hlen : (xs ++ [x]).length = rate * (xs.length / rate + 1) := by
    rw [List.length_append, List.length_singleton, Nat.mul_succ]
    omega
  rw [hlen, Nat.mul_div_cancel_left _ (by omega)]

theorem rest_snoc (h : (rest rate xs).length + 1 < rate) :
    rest rate (xs ++ [x]) = rest rate xs ++ [x] := by
  rw [rest, length_snoc_div x h, rest, List.drop_append_of_le_length (Nat.mul_div_le _ _)]

theorem rest_snoc_full (h : (rest rate xs).length + 1 = rate) : rest rate (xs ++ [x]) = [] := by
  have hdiv := Nat.div_add_mod xs.length rate
  have hlen := rest_length rate xs
  rw [rest, length_snoc_div_full x h, List.drop_eq_nil_iff, List.length_append,
    List.length_singleton, Nat.mul_succ]
  omega

end

/-! ## The sums -/

section

variable [AddMonoid α]

def blockSum (rate : Nat) (xs : List α) (j : Nat) : α := ((xs.drop (rate * j)).take rate).sum

theorem blockSum_append {rate j : Nat} {xs : List α} (h : rate * j + rate ≤ xs.length)
    (ys : List α) : blockSum rate (xs ++ ys) j = blockSum rate xs j := by
  have hdrop : rate ≤ (xs.drop (rate * j)).length := by
    rw [List.length_drop]
    omega
  rw [blockSum, List.drop_append_of_le_length (by omega), List.take_append_of_le_length hdrop,
    blockSum]

theorem blockSum_last {rate j : Nat} {xs : List α} (h : xs.length ≤ rate * j + rate) :
    blockSum rate xs j = (xs.drop (rate * j)).sum := by
  have hdrop : (xs.drop (rate * j)).length ≤ rate := by
    rw [List.length_drop]
    omega
  rw [blockSum, List.take_of_length_le hdrop]

def sums (rate : Nat) (xs : List α) : List α :=
  (List.range (xs.length / rate)).map (blockSum rate xs)

theorem sums_length (rate : Nat) (xs : List α) : (sums rate xs).length = xs.length / rate := by
  rw [sums, List.length_map, List.length_range]

theorem sums_nil {rate : Nat} {xs : List α} (h : xs.length < rate) : sums rate xs = [] := by
  rw [sums, Nat.div_eq_of_lt h, List.range_zero, List.map_nil]

theorem sums_one {rate : Nat} {xs : List α} (hle : rate ≤ xs.length) (hlt : xs.length < 2 * rate) :
    sums rate xs = [(xs.take rate).sum] := by
  have hone : xs.length / rate = 1 := Nat.div_eq_of_lt_le (by omega) hlt
  rw [sums, hone, List.range_one, List.map_singleton, blockSum, Nat.mul_zero, List.drop_zero]

theorem blockSum_snoc {rate : Nat} {xs : List α} (x : α) :
    ∀ j ∈ List.range (xs.length / rate), blockSum rate (xs ++ [x]) j = blockSum rate xs j := by
  intro j hj
  have hdiv := Nat.mul_div_le xs.length rate
  have hle := Nat.mul_le_mul_left rate (List.mem_range.mp hj)
  rw [Nat.mul_succ] at hle
  exact blockSum_append (Nat.le_trans hle hdiv) [x]

theorem sums_snoc {rate : Nat} {xs : List α} (x : α) (h : (rest rate xs).length + 1 < rate) :
    sums rate (xs ++ [x]) = sums rate xs := by
  rw [sums, length_snoc_div x h, sums]
  exact List.map_congr_left (blockSum_snoc x)

theorem sums_snoc_full {rate : Nat} {xs : List α} (x : α) (h : (rest rate xs).length + 1 = rate) :
    sums rate (xs ++ [x]) = sums rate xs ++ [(rest rate xs).sum + x] := by
  have hlen := rest_length rate xs
  have hdiv := Nat.div_add_mod xs.length rate
  have hfull : (xs ++ [x]).length ≤ rate * (xs.length / rate) + rate := by
    rw [List.length_append, List.length_singleton]
    omega
  have hlast : blockSum rate (xs ++ [x]) (xs.length / rate) = (rest rate xs).sum + x := by
    rw [blockSum_last hfull, List.drop_append_of_le_length (Nat.mul_div_le _ _), List.sum_append,
      List.sum_singleton, rest]
  rw [sums, length_snoc_div_full x h, List.range_succ, List.map_append, List.map_singleton, hlast,
    sums, List.map_congr_left (blockSum_snoc x)]

end

end Decimation
