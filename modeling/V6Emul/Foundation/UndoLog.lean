import Mathlib.Data.List.Nodup

/-!
# Undo logs

A log entry keeps the address of a store, the value stored and the value that
was there before.  Replayed forwards the log redoes the stores, replayed
backwards with the old values it undoes them, also when one address occurs
several times.  When none does, some of the stores can be undone alone.
-/

namespace UndoLog

structure Cells (M A V : Type) where
  read : M → A → V
  write : M → A → V → M
  write_write : ∀ m a v w, write (write m a v) a w = write m a w
  write_read : ∀ m a, write m a (read m a) = m

structure Entry (A V : Type) where
  addr : A
  value : V
  before : V
  deriving DecidableEq, Repr

namespace Cells

variable {M A V : Type} (c : Cells M A V)

/-! ## Replaying a log -/

def redo (m : M) : List (Entry A V) → M
  | [] => m
  | e :: log => redo (c.write m e.addr e.value) log

def undo (m : M) : List (Entry A V) → M
  | [] => m
  | e :: log => c.write (undo m log) e.addr e.before

/-- The old values in `log` are those met by replaying it from `m`. -/
def Recorded (m : M) : List (Entry A V) → Prop
  | [] => True
  | e :: log => e.before = c.read m e.addr ∧ Recorded (c.write m e.addr e.value) log

@[simp] theorem redo_nil (m : M) : c.redo m [] = m := rfl

@[simp] theorem undo_nil (m : M) : c.undo m [] = m := rfl

theorem redo_append (m : M) (log log' : List (Entry A V)) :
    c.redo m (log ++ log') = c.redo (c.redo m log) log' := by
  induction log generalizing m with
  | nil => rfl
  | cons e log ih => exact ih _

theorem recorded_append (m : M) (log log' : List (Entry A V)) :
    c.Recorded m (log ++ log') ↔ c.Recorded m log ∧ c.Recorded (c.redo m log) log' := by
  induction log generalizing m with
  | nil => simp [Recorded]
  | cons e log ih =>
      rw [List.cons_append]
      simp only [Recorded, redo, ih, and_assoc]

/-! ## Redo and undo are inverse on a recorded log -/

theorem undo_redo {m : M} {log : List (Entry A V)} (h : c.Recorded m log) :
    c.undo (c.redo m log) log = m := by
  induction log generalizing m with
  | nil => rfl
  | cons e log ih =>
      obtain ⟨hbefore, hlog⟩ := h
      simp only [redo, undo]
      rw [ih hlog, c.write_write, hbefore, c.write_read]

theorem recorded_snoc {m : M} {log : List (Entry A V)} (h : c.Recorded m log) (a : A) (v : V) :
    c.Recorded m (log ++ [⟨a, v, c.read (c.redo m log) a⟩]) := by
  rw [recorded_append]
  exact ⟨h, rfl, trivial⟩

theorem redo_snoc (m : M) (log : List (Entry A V)) (e : Entry A V) :
    c.redo m (log ++ [e]) = c.write (c.redo m log) e.addr e.value := by
  rw [redo_append]
  rfl

/-! ## Undoing part of a log -/

section PutBack

variable (p : A → Bool)

def putBack (m : M) : List (Entry A V) → M
  | [] => m
  | e :: log => putBack (if p e.addr then c.write m e.addr e.before else m) log

variable {c} {p} {inside : A → Prop}
  (hself : ∀ m a v, inside a → c.read (c.write m a v) a = v)
  (hother : ∀ m a b v, a ≠ b → c.read (c.write m a v) b = c.read m b)

include hother

theorem read_redo_of_not_mem {m : M} {log : List (Entry A V)} {a : A}
    (ha : a ∉ log.map Entry.addr) : c.read (c.redo m log) a = c.read m a := by
  induction log generalizing m with
  | nil => rfl
  | cons e log ih =>
      rw [List.map_cons, List.mem_cons, not_or] at ha
      rw [redo, ih ha.2, hother m e.addr a e.value fun h => ha.1 h.symm]

theorem read_putBack_of_spared {m : M} {log : List (Entry A V)} {a : A}
    (ha : p a = false ∨ a ∉ log.map Entry.addr) :
    c.read (c.putBack p m log) a = c.read m a := by
  induction log generalizing m with
  | nil => rfl
  | cons e log ih =>
      rw [putBack, ih (ha.imp_right fun h hin => h (List.mem_cons_of_mem _ hin))]
      split
      · rename_i hp
        apply hother
        rintro rfl
        rcases ha with hfalse | hmem
        · rw [hfalse] at hp
          contradiction
        · exact hmem List.mem_cons_self
      · rfl

theorem Recorded.before_eq {m : M} {log : List (Entry A V)} (h : c.Recorded m log)
    (hnodup : (log.map Entry.addr).Nodup) {e : Entry A V} (he : e ∈ log) :
    e.before = c.read m e.addr := by
  induction log generalizing m with
  | nil => contradiction
  | cons f log ih =>
      rw [List.map_cons, List.nodup_cons] at hnodup
      rcases List.mem_cons.mp he with rfl | hin
      · exact h.1
      · rw [ih h.2 hnodup.2 hin]
        apply hother
        intro heq
        exact hnodup.1 (heq ▸ List.mem_map_of_mem hin)

include hself

theorem read_putBack {m : M} {log : List (Entry A V)} (hnodup : (log.map Entry.addr).Nodup)
    {e : Entry A V} (he : e ∈ log) (hp : p e.addr = true) (hin : inside e.addr) :
    c.read (c.putBack p m log) e.addr = e.before := by
  induction log generalizing m with
  | nil => contradiction
  | cons f log ih =>
      rw [List.map_cons, List.nodup_cons] at hnodup
      rw [putBack]
      rcases List.mem_cons.mp he with rfl | hlog
      · rw [read_putBack_of_spared hother (.inr hnodup.1), if_pos hp, hself _ _ _ hin]
      · exact ih hnodup.2 hlog

theorem read_putBack_drop {m : M} {log : List (Entry A V)} (h : c.Recorded m log)
    (hnodup : (log.map Entry.addr).Nodup) (hin : ∀ e ∈ log, inside e.addr) {k : Nat}
    (hspared : ∀ a ∈ (log.map Entry.addr).take k, p a = false) (a : A) :
    c.read (c.putBack p (c.redo m log) (log.drop k)) a =
      if p a then c.read m a else c.read (c.redo m log) a := by
  by_cases hp : p a = true
  · rw [if_pos hp]
    by_cases hmem : a ∈ log.map Entry.addr
    · rw [← List.take_append_drop k (log.map Entry.addr), List.mem_append] at hmem
      have hlater := hmem.resolve_left fun hfirst => by
        rw [hspared a hfirst] at hp
        contradiction
      rw [← List.map_drop] at hlater
      obtain ⟨e, he, rfl⟩ := List.mem_map.mp hlater
      have hnodup' : ((log.drop k).map Entry.addr).Nodup := by
        rw [List.map_drop]
        exact hnodup.sublist (List.drop_sublist _ _)
      have hlog := List.mem_of_mem_drop he
      rw [read_putBack hself hother hnodup' he hp (hin e hlog)]
      exact h.before_eq hother hnodup hlog
    · rw [read_putBack_of_spared hother, read_redo_of_not_mem hother hmem]
      right
      rw [List.map_drop]
      exact fun hlater => hmem (List.mem_of_mem_drop hlater)
  · rw [if_neg hp]
    exact read_putBack_of_spared hother (.inl (Bool.eq_false_iff.mpr hp))

end PutBack
end Cells

end UndoLog
