import Mathlib.Algebra.Order.Group.Nat
import Mathlib.Logic.Function.Iterate

/-!
# Clock dividers

A divider counts ticks and fires when its count reaches the period.  The count starts
again at zero, also when the period has been lowered below it.
-/

namespace Divider

def Fires (period count : Nat) : Prop := period ≤ count + 1

instance (period count : Nat) : Decidable (Fires period count) :=
  inferInstanceAs (Decidable (_ ≤ _))

def next (period count : Nat) : Nat := if Fires period count then 0 else count + 1

/-- How often the divider fires within `n` ticks. -/
def fired (period count n : Nat) : Nat := (min count (period - 1) + n) / max period 1

@[simp] theorem fired_zero (period count : Nat) : fired period count 0 = 0 := by
  rw [fired, Nat.add_zero]
  apply Nat.div_eq_of_lt
  omega

theorem fired_of_fires {period count : Nat} (h : Fires period count) (n : Nat) :
    fired period count (n + 1) = fired period 0 n + 1 := by
  rw [Fires] at h
  rcases Nat.eq_zero_or_pos period with rfl | hpos
  · simp [fired]
  · have hmin : min count (period - 1) + (n + 1) = n + period := by omega
    have hmax : max period 1 = period := by omega
    simp [fired, hmin, hmax, Nat.add_div_right n hpos]

theorem fired_of_not_fires {period count : Nat} (h : ¬ Fires period count) (n : Nat) :
    fired period count (n + 1) = fired period (count + 1) n := by
  rw [Fires] at h
  have hmin : min count (period - 1) + (n + 1) = min (count + 1) (period - 1) + n := by omega
  rw [fired, hmin, fired]

section

variable {S : Type}

structure Drives (clock : S → S) (period count : S → Nat) (P : Nat → S → Prop) : Prop where
  period_clock : ∀ s, period (clock s) = period s
  count_clock : ∀ s, count (clock s) = next (period s) (count s)
  fires : ∀ s k, P k s → Fires (period s) (count s) → P (k + 1) (clock s)
  waits : ∀ s k, P k s → ¬ Fires (period s) (count s) → P k (clock s)

variable {clock : S → S} {period count : S → Nat} {P : Nat → S → Prop}

theorem Drives.iterate (h : Drives clock period count P) (n : Nat) {s : S} {k : Nat}
    (hk : P k s) : P (k + fired (period s) (count s) n) (clock^[n] s) := by
  induction n generalizing s k with
  | zero => simpa using hk
  | succ n ih =>
      rw [Function.iterate_succ_apply]
      by_cases hfires : Fires (period s) (count s)
      · have hnext := ih (h.fires s k hk hfires)
        rw [h.period_clock, h.count_clock, next, if_pos hfires] at hnext
        rwa [fired_of_fires hfires, ← Nat.add_assoc, Nat.add_right_comm]
      · have hnext := ih (h.waits s k hk hfires)
        rw [h.period_clock, h.count_clock, next, if_neg hfires] at hnext
        rwa [fired_of_not_fires hfires]

end

end Divider
