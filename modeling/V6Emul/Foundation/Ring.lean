import Mathlib.Data.Nat.ModEq
import Mathlib.Data.List.Basic
import Mathlib.Logic.Function.Basic

/-!
# Circular buffers

A buffer of `size` slots holds a list as a window: its elements lie in
consecutive slots from `base` on, wrapping round at the end of the buffer.
-/

namespace Ring

variable {α : Type}

def slot (size base offset : Nat) : Nat := (base + offset) % size

theorem slot_lt {size : Nat} (h : 0 < size) (base offset : Nat) : slot size base offset < size :=
  Nat.mod_lt _ h

theorem slot_injective {size base i j : Nat} (hi : i < size) (hj : j < size)
    (h : slot size base i = slot size base j) : i = j := by
  have hmod : base + i ≡ base + j [MOD size] := h
  have hij : i % size = j % size := hmod.add_left_cancel'
  rwa [Nat.mod_eq_of_lt hi, Nat.mod_eq_of_lt hj] at hij

theorem slot_succ (size base offset : Nat) :
    (slot size base offset + 1) % size = slot size base (offset + 1) := by
  rw [slot, slot, Nat.mod_add_mod, Nat.add_assoc]

theorem slot_pred {size : Nat} (h : 0 < size) (base offset : Nat) :
    (slot size base (offset + 1) + size - 1) % size = slot size base offset := by
  have hsum : slot size base (offset + 1) + size - 1 = slot size base (offset + 1) + (size - 1) := by
    omega
  have hrest : base + (offset + 1) + (size - 1) = base + offset + size := by
    omega
  rw [hsum, slot, Nat.mod_add_mod, hrest, Nat.add_mod_right, slot]

theorem slot_sub {size base offset i : Nat} (hsize : 0 < size) (hi : i ≤ offset)
    (hslot : i ≤ slot size base offset) :
    slot size base (offset - i) = slot size base offset - i := by
  have hlt := slot_lt hsize base offset
  have hdiv := Nat.div_add_mod (base + offset) size
  rw [slot] at hslot hlt ⊢
  have hsplit : base + (offset - i) =
      size * ((base + offset) / size) + ((base + offset) % size - i) := by
    omega
  rw [hsplit, Nat.mul_add_mod, slot, Nat.mod_eq_of_lt (by omega)]

theorem slot_slot (size base i j : Nat) : slot size (slot size base i) j = slot size base (i + j) := by
  rw [slot, slot, Nat.mod_add_mod, slot, Nat.add_assoc]

theorem slot_slot_sub {size k : Nat} (hk : k ≤ size) (base i : Nat) :
    slot size (slot size base k + size - k) i = slot size base i := by
  have hsum : slot size base k + size - k + i = slot size base k + (size - k + i) := by
    omega
  have hrest : base + k + (size - k + i) = base + i + size := by
    omega
  rw [slot, hsum, slot, Nat.mod_add_mod, hrest, Nat.add_mod_right, slot]

theorem take_cons_reverse (x : α) (l : List α) (n : Nat) (hn : 0 < n) :
    ((x :: l).take n).reverse =
      (if (l.take n).reverse.length < n then (l.take n).reverse else (l.take n).reverse.tail)
        ++ [x] := by
  have hcons : (x :: l).take n = x :: l.take (n - 1) := by
    rw [← Nat.sub_add_cancel hn, List.take_succ_cons, Nat.add_sub_cancel]
  rw [hcons, List.reverse_cons]
  by_cases hlt : l.length < n
  · have hall : l.take n = l := List.take_of_length_le (Nat.le_of_lt hlt)
    have hpred : l.take (n - 1) = l := List.take_of_length_le (Nat.le_sub_one_of_lt hlt)
    rw [hall, hpred, List.length_reverse, if_pos hlt]
  · have hlen : (l.take n).length = n := List.length_take_of_le (Nat.le_of_not_lt hlt)
    rw [List.length_reverse, hlen, if_neg (Nat.lt_irrefl n), List.tail_reverse,
      List.dropLast_eq_take, hlen, List.take_take, Nat.min_eq_left (Nat.sub_le n 1)]

structure Window (buffer : Nat → α) (size base : Nat) (l : List α) : Prop where
  length_le : l.length ≤ size
  get : ∀ i (h : i < l.length), buffer (slot size base i) = l[i]

namespace Window

variable {buffer : Nat → α} {size base : Nat} {l : List α}

theorem set (h : Window buffer size base l) {i : Nat} (hi : i < l.length) (x : α) :
    Window (Function.update buffer (slot size base i) x) size base (l.set i x) := by
  refine ⟨by simpa using h.length_le, ?_⟩
  intro j hj
  rw [List.length_set] at hj
  by_cases hij : j = i
  · subst hij
    simp
  · have hne : slot size base j ≠ slot size base i := fun heq =>
      hij (slot_injective (hj.trans_le h.length_le) (hi.trans_le h.length_le) heq)
    rw [Function.update_of_ne hne, h.get j hj, List.getElem_set_ne (Ne.symm hij)]

theorem push (h : Window buffer size base l) (hlt : l.length < size) (x : α) :
    Window (Function.update buffer (slot size base l.length) x) size base (l ++ [x]) := by
  refine ⟨by simpa using Nat.succ_le_of_lt hlt, ?_⟩
  intro j hj
  by_cases hjl : j < l.length
  · have hne : slot size base j ≠ slot size base l.length := fun heq =>
      Nat.ne_of_lt hjl (slot_injective (hjl.trans hlt) hlt heq)
    rw [Function.update_of_ne hne, h.get j hjl, List.getElem_append_left hjl]
  · have hlast : j = l.length := by
      rw [List.length_append, List.length_singleton] at hj
      omega
    subst hlast
    simp

theorem pushFull (h : Window buffer size base l) (hfull : l.length = size) (hpos : 0 < size)
    (x : α) :
    Window (Function.update buffer (slot size base l.length) x) size (slot size base 1)
      (l.tail ++ [x]) := by
  have htail : l.tail.length = size - 1 := by
    rw [List.length_tail, hfull]
  refine ⟨by rw [List.length_append, htail, List.length_singleton]; omega, ?_⟩
  intro j hj
  rw [slot_slot, Nat.add_comm 1 j]
  by_cases hjl : j < l.tail.length
  · have hj1 : j + 1 < l.length := by
      omega
    have hne : slot size base (j + 1) ≠ slot size base l.length := by
      intro heq
      have hzero : slot size base l.length = slot size base 0 := by
        rw [hfull, slot, slot, Nat.add_mod_right, Nat.add_zero]
      have h0 := slot_injective (hj1.trans_le h.length_le) hpos (heq.trans hzero)
      omega
    rw [Function.update_of_ne hne, h.get (j + 1) hj1, List.getElem_append_left hjl,
      List.getElem_tail]
  · have hlast : j = l.tail.length := by
      rw [List.length_append, List.length_singleton] at hj
      omega
    have hslot : slot size base (j + 1) = slot size base l.length := by
      rw [hlast, htail, hfull, Nat.sub_add_cancel hpos]
    rw [hslot]
    subst hlast
    simp

theorem pushFront (h : Window buffer size base l) (hpos : 0 < size) (x : α) :
    Window (Function.update buffer ((base + size - 1) % size) x) size ((base + size - 1) % size)
      ((x :: l).take size) := by
  have hnext : ∀ i, slot size ((base + size - 1) % size) (i + 1) = slot size base i := by
    intro i
    have hsum : base + size - 1 + (i + 1) = base + i + size := by omega
    rw [slot, Nat.mod_add_mod, hsum, Nat.add_mod_right, slot]
  have hfirst : slot size ((base + size - 1) % size) 0 = (base + size - 1) % size := by
    rw [slot, Nat.add_zero, Nat.mod_mod]
  refine ⟨by rw [List.length_take]; exact Nat.min_le_left _ _, ?_⟩
  intro i hi
  rw [List.length_take, List.length_cons] at hi
  cases i with
  | zero => simp [hfirst]
  | succ i =>
      have hne : slot size ((base + size - 1) % size) (i + 1) ≠ (base + size - 1) % size := by
        intro heq
        have hzero := slot_injective (by omega) hpos (heq.trans hfirst.symm)
        omega
      rw [Function.update_of_ne hne, hnext, h.get i (by omega), List.getElem_take,
        List.getElem_cons_succ]

theorem take (h : Window buffer size base l) (n : Nat) : Window buffer size base (l.take n) := by
  have hle : (l.take n).length ≤ l.length := List.length_take_le' n l
  refine ⟨hle.trans h.length_le, ?_⟩
  intro i hi
  rw [h.get i (hi.trans_le hle), List.getElem_take]

end Window

end Ring
