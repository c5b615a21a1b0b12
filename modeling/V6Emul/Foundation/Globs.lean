import Mathlib.Data.List.Basic
import Mathlib.Data.List.Forall2

/-!
# Patterns with stars

A value matches a pattern when it can be split into one part for each symbol of the
pattern: a star stands for any part, and any other symbol for a part of one character
that it is the same as.
-/

namespace Glob

variable {α β : Type} {star : α → Prop} {same : α → β → Prop}

def Stands (star : α → Prop) (same : α → β → Prop) (a : α) (part : List β) : Prop :=
  star a ∨ ∃ c, part = [c] ∧ same a c

def Matches (star : α → Prop) (same : α → β → Prop) (pattern : List α) (value : List β) : Prop :=
  ∃ parts : List (List β), List.Forall₂ (Stands star same) pattern parts ∧ parts.flatten = value

@[simp] theorem matches_nil {value : List β} : Matches star same [] value ↔ value = [] := by
  constructor
  · rintro ⟨parts, hparts, rfl⟩
    rw [List.forall₂_nil_left_iff.mp hparts]
    rfl
  · rintro rfl
    exact ⟨[], .nil, rfl⟩

theorem matches_cons {a : α} {pattern : List α} {value : List β} :
    Matches star same (a :: pattern) value ↔
      ∃ part rest, value = part ++ rest ∧ Stands star same a part ∧
        Matches star same pattern rest := by
  constructor
  · rintro ⟨parts, hparts, rfl⟩
    obtain ⟨part, parts, ha, hrest, rfl⟩ := List.forall₂_cons_left_iff.mp hparts
    exact ⟨part, parts.flatten, rfl, ha, parts, hrest, rfl⟩
  · rintro ⟨part, rest, rfl, ha, parts, hparts, rfl⟩
    exact ⟨part :: parts, .cons ha hparts, rfl⟩

/-! ## Stars -/

theorem matches_star {a : α} (ha : star a) {pattern : List α} {value : List β} :
    Matches star same (a :: pattern) value ↔ ∃ k, Matches star same pattern (value.drop k) := by
  rw [matches_cons]
  constructor
  · rintro ⟨part, rest, rfl, -, hrest⟩
    exact ⟨part.length, List.drop_left.symm ▸ hrest⟩
  · rintro ⟨k, hrest⟩
    exact ⟨value.take k, value.drop k, (List.take_append_drop k value).symm, .inl ha, hrest⟩

theorem matches_empty {pattern : List α} :
    Matches star same pattern [] ↔ ∀ a ∈ pattern, star a := by
  induction pattern with
  | nil => simp
  | cons a pattern ih =>
      rw [List.forall_mem_cons, ← ih, matches_cons]
      constructor
      · rintro ⟨part, rest, hvalue, ha, hrest⟩
        obtain ⟨rfl, rfl⟩ := List.append_eq_nil_iff.mp hvalue.symm
        rcases ha with ha | ⟨c, hc, -⟩
        · exact ⟨ha, hrest⟩
        · cases hc
      · rintro ⟨ha, hrest⟩
        exact ⟨[], [], rfl, .inl ha, hrest⟩

/-! ## Other symbols -/

theorem matches_symbol {a : α} (ha : ¬ star a) {pattern : List α} {c : β} {value : List β} :
    Matches star same (a :: pattern) (c :: value) ↔ same a c ∧ Matches star same pattern value := by
  rw [matches_cons]
  constructor
  · rintro ⟨part, rest, hvalue, hstar | ⟨d, rfl, hd⟩, hrest⟩
    · exact absurd hstar ha
    · obtain ⟨rfl, rfl⟩ := List.cons_eq_cons.mp hvalue
      exact ⟨hd, hrest⟩
  · rintro ⟨hc, hrest⟩
    exact ⟨[c], value, rfl, .inr ⟨c, rfl, hc⟩, hrest⟩

theorem Matches.drop {symbols : List α} (hsymbols : ∀ a ∈ symbols, ¬ star a) {pattern : List α}
    {value : List β} (h : Matches star same (symbols ++ pattern) value) :
    Matches star same pattern (value.drop symbols.length) := by
  induction symbols generalizing value with
  | nil => exact h
  | cons a symbols ih =>
      obtain ⟨ha, hrest⟩ := List.forall_mem_cons.mp hsymbols
      cases value with
      | nil => exact absurd (matches_empty.mp h a List.mem_cons_self) ha
      | cons c value => exact ih hrest ((matches_symbol ha).mp h).2

theorem Matches.star_of_append {symbols : List α} (hsymbols : ∀ a ∈ symbols, ¬ star a) {a : α}
    (ha : star a) {pattern : List α} {value : List β}
    (h : Matches star same (symbols ++ a :: pattern) value) :
    ∃ k, symbols.length ≤ k ∧ Matches star same pattern (value.drop k) := by
  obtain ⟨k, hk⟩ := (matches_star ha).mp (h.drop hsymbols)
  rw [List.drop_drop] at hk
  exact ⟨symbols.length + k, Nat.le_add_right _ k, hk⟩

end Glob
