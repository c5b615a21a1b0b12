import Mathlib.Data.List.TakeWhile
import V6Emul.Foundation.Globs
import V6Emul.Memory

/-!
# Patterns of a trace filter

`GlobMatches` walks over the pattern and the value together.  At a `*` it goes on as if
the star stood for nothing; when the walk fails it comes back to the last star only, and
lets it stand for one more byte.
-/

namespace V6Emul

def globStar : Byte := 42#8

def toLower (c : Byte) : Byte := if 65#8 ≤ c ∧ c ≤ 90#8 then c + 32#8 else c

def stringBytes (text : String) : List Byte := text.toUTF8.data.toList.map UInt8.toBitVec

structure GlobState where
  patternIndex : Nat
  valueIndex : Nat
  starIndex : Option Nat
  starValueIndex : Nat
  starValueIndex_le : starValueIndex ≤ valueIndex

namespace GlobState

def start : GlobState := ⟨0, 0, none, 0, Nat.le_refl 0⟩

def sameByte (pattern : List Byte) (s : GlobState) (c : Byte) : Bool :=
  match pattern[s.patternIndex]? with
  | none => false
  | some a => a != globStar && toLower a == toLower c

/-- A turn of the loop at the byte `c` of the value; `none` where it returns `false`. -/
def next (pattern : List Byte) (s : GlobState) (c : Byte) : Option GlobState :=
  if s.sameByte pattern c then
    some ⟨s.patternIndex + 1, s.valueIndex + 1, s.starIndex, s.starValueIndex,
      Nat.le_succ_of_le s.starValueIndex_le⟩
  else if pattern[s.patternIndex]? = some globStar then
    some ⟨s.patternIndex + 1, s.valueIndex, some s.patternIndex, s.valueIndex, Nat.le_refl _⟩
  else
    s.starIndex.map fun starIndex =>
      ⟨starIndex + 1, s.starValueIndex + 1, some starIndex, s.starValueIndex + 1, Nat.le_refl _⟩

def finish (pattern : List Byte) (s : GlobState) : Bool :=
  let stars := (pattern.drop s.patternIndex).takeWhile (· == globStar)
  s.patternIndex + stars.length == pattern.length

/-- What every turn makes smaller: what the last star may still stand for comes first. -/
def rank (pattern value : List Byte) (s : GlobState) : Nat :=
  (value.length - s.starValueIndex) * (pattern.length + 1) + (pattern.length - s.patternIndex)

theorem rank_next {pattern value : List Byte} {s t : GlobState} {c : Byte}
    (hvalue : s.valueIndex < value.length) (h : s.next pattern c = some t) :
    t.rank pattern value < s.rank pattern value := by
  have hstar : s.starValueIndex < value.length := Nat.lt_of_le_of_lt s.starValueIndex_le hvalue
  rw [next] at h
  split at h
  · rename_i hsame
    cases h
    have hpattern : s.patternIndex < pattern.length := by
      rw [sameByte] at hsame
      split at hsame
      · cases hsame
      · rename_i a ha
        exact (List.getElem?_eq_some_iff.mp ha).1
    simp only [rank]
    omega
  · split at h
    · rename_i hpattern
      cases h
      have hlt := (List.getElem?_eq_some_iff.mp hpattern).1
      have hmul : (value.length - s.valueIndex) * (pattern.length + 1) ≤
          (value.length - s.starValueIndex) * (pattern.length + 1) :=
        Nat.mul_le_mul_right _ (Nat.sub_le_sub_left s.starValueIndex_le _)
      simp only [rank]
      omega
    · obtain ⟨starIndex, -, rfl⟩ := Option.map_eq_some_iff.mp h
      have hmul : (value.length - s.starValueIndex) * (pattern.length + 1) =
          (value.length - (s.starValueIndex + 1)) * (pattern.length + 1) + (pattern.length + 1) := by
        rw [← Nat.succ_mul]
        congr 1
        omega
      simp only [rank]
      omega

def run (pattern value : List Byte) (s : GlobState) : Bool :=
  if h : s.valueIndex < value.length then
    match _hnext : s.next pattern (value.get ⟨s.valueIndex, h⟩) with
    | none => false
    | some t => t.run pattern value
  else s.finish pattern
termination_by s.rank pattern value
decreasing_by exact rank_next h _hnext

end GlobState

def globMatches (pattern value : List Byte) : Bool := GlobState.start.run pattern value

/-! ## The language of a pattern -/

def IsStar (a : Byte) : Prop := a = globStar

def SameByte (a c : Byte) : Prop := toLower a = toLower c

/-- `value` can be split into any bytes for every `*` of the pattern and an equal byte, up to
case, for every other byte of it. -/
def GlobLanguage (pattern value : List Byte) : Prop :=
  Glob.Matches IsStar SameByte pattern value

theorem globLanguage_symbol {a : Byte} (ha : a ≠ globStar) {pattern : List Byte} {c : Byte}
    {value : List Byte} : GlobLanguage (a :: pattern) (c :: value) ↔
      SameByte a c ∧ GlobLanguage pattern value :=
  Glob.matches_symbol (show ¬ IsStar a from ha)

theorem globLanguage_star {pattern value : List Byte} :
    GlobLanguage (globStar :: pattern) value ↔ ∃ k, GlobLanguage pattern (value.drop k) :=
  Glob.matches_star (show IsStar globStar from rfl)

namespace GlobState

/-- The bytes of the pattern behind the last star, up to here, and how many bytes of the value
they have taken. -/
structure Tracks (pattern value : List Byte) (s : GlobState) : Prop where
  patternIndex_le : s.patternIndex ≤ pattern.length
  valueIndex_le : s.valueIndex ≤ value.length
  symbols : ∀ starIndex, s.starIndex = some starIndex → starIndex < pattern.length ∧
    ∃ symbols : List Byte, (∀ a ∈ symbols, ¬ IsStar a) ∧
      pattern.drop (starIndex + 1) = symbols ++ pattern.drop s.patternIndex ∧
      s.valueIndex = s.starValueIndex + symbols.length

def Remains (pattern value : List Byte) (s : GlobState) : Prop :=
  GlobLanguage (pattern.drop s.patternIndex) (value.drop s.valueIndex) ∨
    ∃ starIndex, s.starIndex = some starIndex ∧ ∃ k, s.starValueIndex < k ∧
      GlobLanguage (pattern.drop (starIndex + 1)) (value.drop k)

theorem tracks_start (pattern value : List Byte) : Tracks pattern value start where
  patternIndex_le := Nat.zero_le _
  valueIndex_le := Nat.zero_le _
  symbols _ h := nomatch h

/-! ### The cases of a turn -/

/-- What a turn does at a byte of the value, in the order of the tests. -/
inductive Turn (pattern : List Byte) (s : GlobState) (c : Byte) : Option GlobState → Prop where
  | same {a : Byte} {t : GlobState} : a ≠ globStar → toLower a = toLower c →
      pattern.drop s.patternIndex = a :: pattern.drop (s.patternIndex + 1) →
      t.patternIndex = s.patternIndex + 1 → t.valueIndex = s.valueIndex + 1 →
      t.starIndex = s.starIndex → t.starValueIndex = s.starValueIndex → Turn pattern s c (some t)
  | star {t : GlobState} :
      pattern.drop s.patternIndex = globStar :: pattern.drop (s.patternIndex + 1) →
      t.patternIndex = s.patternIndex + 1 → t.valueIndex = s.valueIndex →
      t.starIndex = some s.patternIndex → t.starValueIndex = s.valueIndex → Turn pattern s c (some t)
  | back {starIndex : Nat} {t : GlobState} :
      (∀ rest, ¬ GlobLanguage (pattern.drop s.patternIndex) (c :: rest)) →
      s.starIndex = some starIndex → t.patternIndex = starIndex + 1 →
      t.valueIndex = s.starValueIndex + 1 → t.starIndex = some starIndex →
      t.starValueIndex = s.starValueIndex + 1 → Turn pattern s c (some t)
  | fail : (∀ rest, ¬ GlobLanguage (pattern.drop s.patternIndex) (c :: rest)) →
      s.starIndex = none → Turn pattern s c none

theorem drop_of_getElem? {pattern : List Byte} {i : Nat} {a : Byte} (h : pattern[i]? = some a) :
    pattern.drop i = a :: pattern.drop (i + 1) := by
  obtain ⟨hlt, ha⟩ := List.getElem?_eq_some_iff.mp h
  rw [List.drop_eq_getElem_cons hlt, ha]

theorem not_language_of_mismatch {pattern : List Byte} {s : GlobState} {c : Byte}
    (hsame : s.sameByte pattern c = false) (hstar : pattern[s.patternIndex]? ≠ some globStar)
    (rest : List Byte) : ¬ GlobLanguage (pattern.drop s.patternIndex) (c :: rest) := by
  intro h
  cases ha : pattern[s.patternIndex]? with
  | none =>
      rw [List.drop_eq_nil_of_le (List.getElem?_eq_none_iff.mp ha)] at h
      cases Glob.matches_nil.mp h
  | some a =>
      have hne : a ≠ globStar := fun heq => hstar (heq ▸ ha)
      rw [drop_of_getElem? ha] at h
      have hlower : toLower a = toLower c := ((globLanguage_symbol hne).mp h).1
      simp [sameByte, ha, hne, hlower] at hsame

theorem turn_next (pattern : List Byte) (s : GlobState) (c : Byte) :
    Turn pattern s c (s.next pattern c) := by
  rw [next]
  split
  · rename_i hsame
    cases ha : pattern[s.patternIndex]? with
    | none => simp [sameByte, ha] at hsame
    | some a =>
        simp only [sameByte, ha, Bool.and_eq_true, bne_iff_ne, beq_iff_eq] at hsame
        exact .same hsame.1 hsame.2 (drop_of_getElem? ha) rfl rfl rfl rfl
  · rename_i hsame
    split
    · rename_i hstar
      exact .star (drop_of_getElem? hstar) rfl rfl rfl rfl
    · rename_i hstar
      have hnot := not_language_of_mismatch (Bool.eq_false_iff.mpr hsame) hstar
      cases hindex : s.starIndex with
      | none => exact .fail hnot hindex
      | some starIndex => exact .back hnot hindex rfl rfl rfl rfl

/-! ### The walk -/

theorem lt_of_drop {pattern rest : List Byte} {i : Nat} {a : Byte}
    (h : pattern.drop i = a :: rest) : i < pattern.length := by
  have hlength := congrArg List.length h
  rw [List.length_drop, List.length_cons] at hlength
  omega

theorem tracks_next {pattern value : List Byte} {s t : GlobState} {c : Byte}
    (h : Tracks pattern value s) (hvalue : s.valueIndex < value.length)
    (hturn : Turn pattern s c (some t)) : Tracks pattern value t := by
  cases hturn with
  | @same a _ hne _ hdrop hp hv hstar hsv =>
      constructor
      · exact hp ▸ lt_of_drop hdrop
      · exact hv ▸ hvalue
      · intro starIndex hindex
        obtain ⟨hlt, symbols, hsymbols, hsplit, hlength⟩ := h.symbols starIndex (hstar ▸ hindex)
        refine ⟨hlt, symbols ++ [a], ?_, ?_, ?_⟩
        · intro b hb
          rcases List.mem_append.mp hb with hb | hb
          · exact hsymbols b hb
          · exact List.mem_singleton.mp hb ▸ hne
        · rw [hsplit, hdrop, hp, List.append_assoc, List.singleton_append]
        · rw [hv, hsv, hlength, List.length_append, List.length_singleton, Nat.add_assoc]
  | star hdrop hp hv hstar hsv =>
      constructor
      · exact hp ▸ lt_of_drop hdrop
      · exact hv ▸ h.valueIndex_le
      · intro starIndex hindex
        rw [hstar, Option.some_inj] at hindex
        refine ⟨hindex ▸ lt_of_drop hdrop, [], fun _ hb => absurd hb List.not_mem_nil, ?_, ?_⟩
        · rw [← hindex, hp, List.nil_append]
        · rw [hv, hsv, List.length_nil, Nat.add_zero]
  | back _ hindex hp hv hstar hsv =>
      have hlt := (h.symbols _ hindex).1
      constructor
      · exact hp ▸ hlt
      · exact hv ▸ Nat.lt_of_le_of_lt s.starValueIndex_le hvalue
      · intro starIndex' hindex'
        rw [hstar, Option.some_inj] at hindex'
        refine ⟨hindex' ▸ hlt, [], fun _ hb => absurd hb List.not_mem_nil, ?_, ?_⟩
        · rw [← hindex', hp, List.nil_append]
        · rw [hv, hsv, List.length_nil, Nat.add_zero]

theorem remains_next {pattern value : List Byte} {s t : GlobState} {c : Byte} {rest : List Byte}
    (h : Tracks pattern value s) (hvalue : value.drop s.valueIndex = c :: rest)
    (hrest : value.drop (s.valueIndex + 1) = rest) (hturn : Turn pattern s c (some t)) :
    Remains pattern value s ↔ Remains pattern value t := by
  cases hturn with
  | same hne hsame hdrop hp hv hstar hsv =>
      rw [Remains, Remains, hp, hv, hstar, hsv, hrest, hvalue, hdrop, globLanguage_symbol hne,
        SameByte, and_iff_right hsame]
  | star hdrop hp hv hstar hsv =>
      have hnow : GlobLanguage (pattern.drop s.patternIndex) (value.drop s.valueIndex) ↔
          Remains pattern value t := by
        rw [hdrop, globLanguage_star, Remains, hp, hv, hstar, hsv]
        constructor
        · rintro ⟨k, hk⟩
          cases k with
          | zero => exact .inl hk
          | succ k =>
              rw [List.drop_drop] at hk
              exact .inr ⟨_, rfl, s.valueIndex + (k + 1), Nat.lt_add_of_pos_right k.succ_pos, hk⟩
        · rintro (hk | ⟨_, hindex, k, hlt, hk⟩)
          · exact ⟨0, hk⟩
          · refine ⟨k - s.valueIndex, ?_⟩
            rw [List.drop_drop, Nat.add_sub_cancel' (Nat.le_of_lt hlt), Option.some_inj.mp hindex]
            exact hk
      rw [← hnow, Remains]
      refine or_iff_left_of_imp ?_
      rintro ⟨starIndex, hindex, k, hlt, hk⟩
      obtain ⟨-, symbols, hsymbols, hsplit, hlength⟩ := h.symbols starIndex hindex
      rw [hsplit, hdrop] at hk
      obtain ⟨n, hn, hmatch⟩ := Glob.Matches.star_of_append hsymbols
        (show IsStar globStar from rfl) hk
      rw [hdrop, globLanguage_star]
      refine ⟨k + n - s.valueIndex, ?_⟩
      rw [List.drop_drop, Nat.add_sub_cancel' (by omega)]
      rwa [List.drop_drop] at hmatch
  | back hnot hindex hp hv hstar hsv =>
      rw [Remains, Remains, hvalue, hp, hv, hstar, hsv, or_iff_right (hnot rest), hindex]
      constructor
      · rintro ⟨_, hsome, k, hlt, hk⟩
        cases hsome
        rcases Nat.eq_or_lt_of_le hlt with rfl | hlt
        · exact .inl hk
        · exact .inr ⟨_, rfl, k, hlt, hk⟩
      · rintro (hk | ⟨_, hsome, k, hlt, hk⟩)
        · exact ⟨_, rfl, s.starValueIndex + 1, Nat.lt_succ_self _, hk⟩
        · exact ⟨_, hsome, k, Nat.lt_of_succ_lt hlt, hk⟩

theorem not_remains {pattern value : List Byte} {s : GlobState} {c : Byte} {rest : List Byte}
    (hvalue : value.drop s.valueIndex = c :: rest) (hturn : Turn pattern s c none) :
    ¬ Remains pattern value s := by
  cases hturn with
  | fail hnot hindex =>
      rw [Remains, hvalue, hindex]
      rintro (hmatch | ⟨_, hsome, -⟩)
      · exact hnot rest hmatch
      · cases hsome

theorem finish_iff {pattern : List Byte} {s : GlobState} (h : s.patternIndex ≤ pattern.length) :
    s.finish pattern = true ↔ GlobLanguage (pattern.drop s.patternIndex) [] := by
  have hprefix : (pattern.drop s.patternIndex).takeWhile (· == globStar) <+:
      pattern.drop s.patternIndex := List.takeWhile_prefix _
  have hall : (∀ a ∈ pattern.drop s.patternIndex, IsStar a) ↔
      (pattern.drop s.patternIndex).takeWhile (· == globStar) = pattern.drop s.patternIndex := by
    rw [List.takeWhile_eq_self_iff]
    exact forall₂_congr fun a _ => beq_iff_eq.symm
  rw [GlobLanguage, Glob.matches_empty, finish, beq_iff_eq, hall]
  constructor
  · intro hlength
    apply hprefix.eq_of_length
    rw [List.length_drop]
    omega
  · intro heq
    rw [heq, List.length_drop]
    omega

theorem remains_end {pattern value : List Byte} {s : GlobState} (h : Tracks pattern value s)
    (hend : value.length ≤ s.valueIndex) :
    Remains pattern value s ↔ GlobLanguage (pattern.drop s.patternIndex) [] := by
  rw [Remains, List.drop_eq_nil_of_le hend]
  refine or_iff_left_of_imp ?_
  rintro ⟨starIndex, hindex, k, hlt, hk⟩
  obtain ⟨-, symbols, hsymbols, hsplit, hlength⟩ := h.symbols starIndex hindex
  rw [hsplit] at hk
  have hmatch : GlobLanguage (pattern.drop s.patternIndex)
      ((value.drop k).drop symbols.length) := Glob.Matches.drop hsymbols hk
  have hnil : value.drop (k + symbols.length) = [] := List.drop_eq_nil_of_le (by omega)
  rwa [List.drop_drop, hnil] at hmatch

theorem run_of_next {pattern value : List Byte} {s t : GlobState} (hlt : s.valueIndex < value.length)
    (hnext : s.next pattern (value.get ⟨s.valueIndex, hlt⟩) = some t) :
    s.run pattern value = t.run pattern value := by
  rw [run, dif_pos hlt]
  split
  · rename_i hnone
    rw [hnext] at hnone
    cases hnone
  · rename_i u hsome
    rw [hnext, Option.some_inj] at hsome
    rw [hsome]

theorem run_iff {pattern value : List Byte} {s : GlobState} (h : Tracks pattern value s) :
    s.run pattern value = true ↔ Remains pattern value s := by
  induction s using run.induct pattern value with
  | case1 s hlt hfail =>
      have hturn := s.turn_next pattern (value.get ⟨s.valueIndex, hlt⟩)
      rw [hfail] at hturn
      rw [run, dif_pos hlt, hfail]
      simp only [Bool.false_eq_true, false_iff]
      exact not_remains (List.drop_eq_getElem_cons hlt) hturn
  | case2 s hlt t hnext ih =>
      have hturn := s.turn_next pattern (value.get ⟨s.valueIndex, hlt⟩)
      rw [hnext] at hturn
      rw [run_of_next hlt hnext, remains_next h (List.drop_eq_getElem_cons hlt) rfl hturn]
      exact ih (tracks_next h hlt hturn)
  | case3 s hge =>
      rw [run, dif_neg hge, remains_end h (Nat.le_of_not_lt hge)]
      exact finish_iff h.patternIndex_le

/-! ### Turns of the loop -/

/-- `n` turns of the loop from `s`, and what it returns then. -/
inductive Loops (pattern value : List Byte) : GlobState → Nat → Bool → Prop where
  | done {s : GlobState} : value.length ≤ s.valueIndex → Loops pattern value s 0 (s.finish pattern)
  | fail {s : GlobState} (h : s.valueIndex < value.length) :
      s.next pattern (value.get ⟨s.valueIndex, h⟩) = none → Loops pattern value s 1 false
  | turn {s t : GlobState} {n : Nat} {result : Bool} (h : s.valueIndex < value.length) :
      s.next pattern (value.get ⟨s.valueIndex, h⟩) = some t → Loops pattern value t n result →
      Loops pattern value s (n + 1) result

theorem loops_run (pattern value : List Byte) (s : GlobState) :
    ∃ n ≤ s.rank pattern value + 1, Loops pattern value s n (s.run pattern value) := by
  induction s using run.induct pattern value with
  | case1 s hlt hfail =>
      refine ⟨1, Nat.le_add_left 1 _, ?_⟩
      rw [run, dif_pos hlt, hfail]
      exact .fail hlt hfail
  | case2 s hlt t hnext ih =>
      obtain ⟨n, hn, hloops⟩ := ih
      refine ⟨n + 1, Nat.succ_le_succ (Nat.le_trans hn (rank_next hlt hnext)), ?_⟩
      rw [run_of_next hlt hnext]
      exact .turn hlt hnext hloops
  | case3 s hge =>
      refine ⟨0, Nat.zero_le _, ?_⟩
      rw [run, dif_neg hge]
      exact .done (Nat.le_of_not_lt hge)

end GlobState

theorem globMatches_iff (pattern value : List Byte) :
    globMatches pattern value = true ↔ GlobLanguage pattern value := by
  rw [globMatches, GlobState.run_iff (GlobState.tracks_start pattern value), GlobState.Remains]
  refine or_iff_left ?_
  rintro ⟨_, hnone, -⟩
  cases hnone

/--
For every pattern and value: the loop ends, after at most as many turns as the product
of the lengths allows, and it returns whether the value is in the language of the
pattern.
-/
theorem globMatches_decides (pattern value : List Byte) :
    (∃ n ≤ (value.length + 1) * (pattern.length + 1),
      GlobState.Loops pattern value .start n (globMatches pattern value)) ∧
    (globMatches pattern value = true ↔ GlobLanguage pattern value) := by
  constructor
  · obtain ⟨n, hn, hloops⟩ := GlobState.loops_run pattern value .start
    refine ⟨n, Nat.le_trans hn ?_, hloops⟩
    rw [GlobState.rank, Nat.succ_mul]
    exact Nat.le_refl _
  · exact globMatches_iff pattern value

end V6Emul
