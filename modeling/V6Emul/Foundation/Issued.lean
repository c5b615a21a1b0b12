import Mathlib.Data.List.Range
import Mathlib.Data.Int.Basic
import Mathlib.Order.Lattice

/-!
# Numbers given out in order

The numbers 0, 1, 2, ... in the order in which a counter gives them out, and a counter
that stops at a largest number instead of going past it.
-/

namespace Issued

def first (n : Nat) : List Int := (List.range n).map Int.ofNat

theorem first_succ (n : Nat) : first (n + 1) = first n ++ [(n : Int)] := by
  rw [first, List.range_succ, List.map_append]
  rfl

theorem mem_first {n : Nat} {id : Int} : id ∈ first n ↔ 0 ≤ id ∧ id < n := by
  rw [first, List.mem_map]
  constructor
  · rintro ⟨k, hk, rfl⟩
    rw [List.mem_range] at hk
    exact ⟨Int.natCast_nonneg k, Int.ofNat_lt.mpr hk⟩
  · rintro ⟨hpos, hlt⟩
    obtain ⟨k, rfl⟩ := Int.eq_ofNat_of_zero_le hpos
    exact ⟨k, List.mem_range.mpr (Int.ofNat_lt.mp hlt), rfl⟩

/-! ## A counter that stops -/

/-- The number behind the last one given out, and whether it was the largest. -/
def advance (max next : Int) : Int × Bool := if next = max then (next, true) else (next + 1, false)

def Counts (max next : Int) (exhausted : Bool) (n : Nat) : Prop :=
  if exhausted then (n : Int) = max + 1 else next = n ∧ (n : Int) ≤ max

theorem counts_zero {max : Int} (h : 0 ≤ max) : Counts max 0 false 0 := ⟨rfl, h⟩

theorem Counts.next_eq {max next : Int} {n : Nat} (h : Counts max next false n) : next = n := h.1

theorem Counts.advance {max next : Int} {n : Nat} (h : Counts max next false n) :
    Counts max (Issued.advance max next).1 (Issued.advance max next).2 (n + 1) := by
  obtain ⟨rfl, hle⟩ := h
  rw [Issued.advance]
  split
  · rename_i hlast
    change ((n + 1 : Nat) : Int) = max + 1
    omega
  · rename_i hmore
    change (n : Int) + 1 = ((n + 1 : Nat) : Int) ∧ ((n + 1 : Nat) : Int) ≤ max
    omega

end Issued
