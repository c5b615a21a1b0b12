import Mathlib.Data.BitVec

/-!
# Revision counters

A wrapping counter stands for a snapshot: whoever sees the same count may keep the
snapshot taken before.  It does so when a change of the snapshot is counted, and not
so often at once that the count wraps.
-/

namespace Revision

variable {S V : Type} {w : Nat}

/-- From `s` to `t` the counter advances `k` times; not at all only if the snapshot stays. -/
structure Counts (snapshot : S → V) (updates : S → BitVec w) (s t : S) (k : Nat) : Prop where
  advanced : updates t = updates s + BitVec.ofNat w k
  unchanged : k = 0 → snapshot t = snapshot s

def Revised (snapshot : S → V) (updates : S → BitVec w) (s t : S) : Prop :=
  snapshot t ≠ snapshot s → updates t ≠ updates s

def Untouched (snapshot : S → V) (updates : S → BitVec w) (s t : S) : Prop :=
  snapshot t = snapshot s ∧ updates t = updates s

variable {snapshot : S → V} {updates : S → BitVec w} {s t u : S} {k l : Nat}

theorem Counts.none (hsnapshot : snapshot t = snapshot s) (hupdates : updates t = updates s) :
    Counts snapshot updates s t 0 := ⟨by simp [hupdates], fun _ => hsnapshot⟩

theorem Counts.one (hupdates : updates t = updates s + 1) : Counts snapshot updates s t 1 :=
  ⟨hupdates, fun h => absurd h Nat.one_ne_zero⟩

theorem Counts.trans (h : Counts snapshot updates s t k) (h' : Counts snapshot updates t u l) :
    Counts snapshot updates s u (k + l) where
  advanced := by rw [h'.advanced, h.advanced, BitVec.add_assoc, BitVec.ofNat_add]
  unchanged := fun hzero =>
    (h'.unchanged (Nat.eq_zero_of_add_eq_zero hzero).2).trans
      (h.unchanged (Nat.eq_zero_of_add_eq_zero hzero).1)

theorem Counts.revised (h : Counts snapshot updates s t k) (hk : k < 2 ^ w) :
    Revised snapshot updates s t := by
  intro hchanged hsame
  apply hchanged
  apply h.unchanged
  rw [h.advanced] at hsame
  have hzero : BitVec.ofNat w k = 0 := by simpa using hsame
  have hmod := congrArg BitVec.toNat hzero
  rw [BitVec.toNat_ofNat, Nat.mod_eq_of_lt hk] at hmod
  exact hmod

/-- At most `bound` counts, and none when the operation is to have no effect. -/
def Accounted (snapshot : S → V) (updates : S → BitVec w) (bound : Nat) (idle : Prop) (s t : S) :
    Prop :=
  ∃ k ≤ bound, Counts snapshot updates s t k ∧ (idle → k = 0)

theorem Accounted.kept {bound : Nat} {idle : Prop} (hsnapshot : snapshot t = snapshot s)
    (hupdates : updates t = updates s) : Accounted snapshot updates bound idle s t :=
  ⟨0, Nat.zero_le bound, .none hsnapshot hupdates, fun _ => rfl⟩

theorem Accounted.same {bound : Nat} {idle : Prop} (h : t = s) :
    Accounted snapshot updates bound idle s t :=
  .kept (congrArg snapshot h) (congrArg updates h)

theorem Accounted.counted {bound : Nat} {idle : Prop} (hbound : 1 ≤ bound)
    (hupdates : updates t = updates s + 1) (hidle : ¬ idle) :
    Accounted snapshot updates bound idle s t :=
  ⟨1, hbound, .one hupdates, fun h => absurd h hidle⟩

theorem Accounted.mono {bound bound' : Nat} {idle : Prop}
    (h : Accounted snapshot updates bound idle s t) (hbound : bound ≤ bound') :
    Accounted snapshot updates bound' idle s t := by
  obtain ⟨k, hk, hcounts⟩ := h
  exact ⟨k, hk.trans hbound, hcounts⟩

theorem Accounted.imp {bound : Nat} {idle idle' : Prop}
    (h : Accounted snapshot updates bound idle s t) (himp : idle' → idle) :
    Accounted snapshot updates bound idle' s t := by
  obtain ⟨k, hk, hcounts, hzero⟩ := h
  exact ⟨k, hk, hcounts, fun hidle => hzero (himp hidle)⟩

theorem Accounted.trans {bound bound' : Nat} (h : Accounted snapshot updates bound False s t)
    (h' : Accounted snapshot updates bound' False t u) :
    Accounted snapshot updates (bound + bound') False s u := by
  obtain ⟨k, hk, hcounts, -⟩ := h
  obtain ⟨l, hl, hcounts', -⟩ := h'
  exact ⟨k + l, Nat.add_le_add hk hl, hcounts.trans hcounts', False.elim⟩

theorem Counts.untouched (h : Counts snapshot updates s t 0) : Untouched snapshot updates s t :=
  ⟨h.unchanged rfl, by simp [h.advanced]⟩

theorem Accounted.revised {bound : Nat} {idle : Prop}
    (h : Accounted snapshot updates bound idle s t) (hbound : bound < 2 ^ w) :
    Revised snapshot updates s t := by
  obtain ⟨k, hk, hcounts, -⟩ := h
  exact hcounts.revised (Nat.lt_of_le_of_lt hk hbound)

theorem Accounted.untouched {bound : Nat} {idle : Prop}
    (h : Accounted snapshot updates bound idle s t) (hidle : idle) :
    Untouched snapshot updates s t := by
  obtain ⟨k, -, hcounts, hzero⟩ := h
  rw [hzero hidle] at hcounts
  exact hcounts.untouched

theorem Untouched.refl (s : S) : Untouched snapshot updates s s := ⟨rfl, rfl⟩

theorem Untouched.revised (h : Untouched snapshot updates s t) : Revised snapshot updates s t :=
  fun hchanged => absurd h.1 hchanged

end Revision
