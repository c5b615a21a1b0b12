import Mathlib.Data.List.GetD
import Mathlib.Data.List.OfFn
import Mathlib.Logic.Function.Basic

/-!
# Blocks of a fixed-size array

An array of `n` cells is a function on `Fin n`.  A list is written into it from
an offset on, and a block read out of it as a list; both are built up one cell
at a time, the way a device transfers them.
-/

namespace Blocks

variable {α : Type} {n : Nat}

def writeAt (f : Fin n → α) (off : Nat) (l : List α) : Fin n → α :=
  fun i => if i.val < off then f i else l.getD (i.val - off) (f i)

theorem writeAt_nil (f : Fin n → α) (off : Nat) : writeAt f off [] = f := by
  funext i
  simp [writeAt]

theorem writeAt_of_lt (f : Fin n → α) {off : Nat} (l : List α) {i : Fin n} (h : i.val < off) :
    writeAt f off l i = f i :=
  if_pos h

theorem writeAt_of_ge (f : Fin n → α) {off : Nat} {l : List α} {i : Fin n}
    (h : off + l.length ≤ i.val) : writeAt f off l i = f i := by
  rw [writeAt, if_neg (by omega), List.getD_eq_default _ _ (by omega)]

theorem writeAt_cons (f : Fin n → α) {off : Nat} (h : off < n) (a : α) (l : List α) :
    writeAt f off (a :: l) = writeAt (Function.update f ⟨off, h⟩ a) (off + 1) l := by
  funext i
  rcases Nat.lt_trichotomy i.val off with hlt | heq | hgt
  · have hne : i ≠ ⟨off, h⟩ := fun hi => absurd (congrArg Fin.val hi) (Nat.ne_of_lt hlt)
    rw [writeAt_of_lt f _ hlt, writeAt_of_lt _ _ (by omega), Function.update_of_ne hne]
  · have hi : i = ⟨off, h⟩ := Fin.ext heq
    have hbefore : writeAt (Function.update f ⟨off, h⟩ a) (off + 1) l i = a := by
      rw [writeAt_of_lt _ l (heq ▸ Nat.lt_succ_self _), hi, Function.update_self]
    rw [hbefore, writeAt, if_neg (by omega), heq, Nat.sub_self]
    rfl
  · have hne : i ≠ ⟨off, h⟩ := fun hi => absurd (congrArg Fin.val hi) (Nat.ne_of_gt hgt)
    obtain ⟨k, hk⟩ := Nat.exists_eq_add_of_lt hgt
    have hcell : i.val - off = i.val - (off + 1) + 1 := by
      omega
    rw [writeAt, writeAt, if_neg (by omega), if_neg (by omega), Function.update_of_ne hne, hcell,
      List.getD_cons_succ]

def readAt (f : Fin n → α) (off len : Nat) (h : off + len ≤ n) : List α :=
  List.ofFn fun i : Fin len => f ⟨off + i.val, by omega⟩

theorem readAt_succ (f : Fin n → α) {off len : Nat} (h : off + (len + 1) ≤ n) :
    readAt f off (len + 1) h =
      f ⟨off, by omega⟩ :: readAt f (off + 1) len (by omega) := by
  have hcell : ∀ i : Fin len, off + i.succ.val = off + 1 + i.val := by
    intro i
    rw [Fin.val_succ]
    omega
  rw [readAt, List.ofFn_succ]
  simp only [readAt, hcell]
  rfl

theorem readAt_congr {f g : Fin n → α} {off len : Nat} (h : off + len ≤ n)
    (hfg : ∀ i : Fin n, off ≤ i.val → i.val < off + len → f i = g i) :
    readAt f off len h = readAt g off len h := by
  rw [readAt, readAt]
  congr 1
  funext i
  exact hfg _ (Nat.le_add_right off i) (Nat.add_lt_add_left i.isLt off)

theorem readAt_writeAt (f : Fin n → α) {off len : Nat} {l : List α} (hlen : len = l.length)
    (h : off + len ≤ n) : readAt (writeAt f off l) off len h = l := by
  subst hlen
  rw [readAt]
  apply List.ext_getElem
  · rw [List.length_ofFn]
  · intro i hi hl
    rw [List.getElem_ofFn, writeAt, if_neg (by simp), List.getD_eq_getElem _ _ (by simpa using hl)]
    simp

end Blocks
