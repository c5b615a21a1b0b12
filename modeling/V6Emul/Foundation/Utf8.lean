import Mathlib.Data.BitVec
import Mathlib.Data.List.Basic
import Mathlib.Tactic.Linarith

/-!
# Well-formed UTF-8

A string of octets is well-formed when it is the encoding of a list of characters, which
are the code points up to 10FFFF without the surrogates.  The first character is found
from its lead octet: how many octets continue it, and which code point they spell.
-/

namespace Utf8

abbrev Octet := BitVec 8

def encode (c : Char) : List Octet := (String.utf8EncodeChar c).map UInt8.toBitVec

def WellFormed (octets : List Octet) : Prop := ∃ text : List Char, octets = text.flatMap encode

/-! ## The octets of one character -/

def IsContinuation (b : Octet) : Prop := 0x80 ≤ b.toNat ∧ b.toNat < 0xC0

instance (b : Octet) : Decidable (IsContinuation b) := inferInstanceAs (Decidable (_ ∧ _))

/-- How many octets follow a lead octet, and the bits of the code point in it. -/
def lead (b : Octet) : Option (Nat × Nat) :=
  if b.toNat < 0x80 then some (0, b.toNat)
  else if b.toNat < 0xC0 then none
  else if b.toNat < 0xE0 then some (1, b.toNat - 0xC0)
  else if b.toNat < 0xF0 then some (2, b.toNat - 0xE0)
  else if b.toNat < 0xF8 then some (3, b.toNat - 0xF0)
  else none

/-- The code point after `k` more octets, which must all be there and continue it. -/
def spell : Nat → List Octet → Nat → Option Nat
  | 0, _, codePoint => some codePoint
  | _ + 1, [], _ => none
  | k + 1, b :: rest, codePoint =>
      if IsContinuation b then spell k rest (codePoint * 64 + (b.toNat - 0x80)) else none

def least : Nat → Nat
  | 0 => 0
  | 1 => 0x80
  | 2 => 0x800
  | _ => 0x10000

/-- A character of exactly `k` octets behind the lead octet. -/
def Fits (k codePoint : Nat) : Prop := least k ≤ codePoint ∧ codePoint.isValidChar

instance (k codePoint : Nat) : Decidable (Fits k codePoint) := inferInstanceAs (Decidable (_ ∧ _))

/-- The length of the character at the front. -/
def next : List Octet → Option Nat
  | [] => none
  | b :: rest => (lead b).bind fun (k, payload) =>
      (spell k rest payload).bind fun codePoint =>
        if Fits k codePoint then some (k + 1) else none

theorem encode_eq (c : Char) :
    encode c =
      if c.toNat ≤ 0x7F then [BitVec.ofNat 8 c.toNat]
      else if c.toNat ≤ 0x7FF then
        [BitVec.ofNat 8 (c.toNat / 64 % 32 + 0xC0), BitVec.ofNat 8 (c.toNat % 64 + 0x80)]
      else if c.toNat ≤ 0xFFFF then
        [BitVec.ofNat 8 (c.toNat / 4096 % 16 + 0xE0), BitVec.ofNat 8 (c.toNat / 64 % 64 + 0x80),
          BitVec.ofNat 8 (c.toNat % 64 + 0x80)]
      else
        [BitVec.ofNat 8 (c.toNat / 262144 % 8 + 0xF0), BitVec.ofNat 8 (c.toNat / 4096 % 64 + 0x80),
          BitVec.ofNat 8 (c.toNat / 64 % 64 + 0x80), BitVec.ofNat 8 (c.toNat % 64 + 0x80)] := by
  rw [encode, String.utf8EncodeChar]
  simp only [apply_ite (List.map UInt8.toBitVec)]
  rfl

/-! ## The front of a string -/

section Lead

variable {b : Octet}

theorem lead_ascii (h : b.toNat < 0x80) : lead b = some (0, b.toNat) := if_pos h

theorem lead_two {payload : Nat} (h : b.toNat = payload + 0xC0) (hlt : payload < 0x20) :
    lead b = some (1, payload) := by
  rw [lead, if_neg (by omega), if_neg (by omega), if_pos (by omega), h, Nat.add_sub_cancel]

theorem lead_three {payload : Nat} (h : b.toNat = payload + 0xE0) (hlt : payload < 0x10) :
    lead b = some (2, payload) := by
  rw [lead, if_neg (by omega), if_neg (by omega), if_neg (by omega), if_pos (by omega), h,
    Nat.add_sub_cancel]

theorem lead_four {payload : Nat} (h : b.toNat = payload + 0xF0) (hlt : payload < 8) :
    lead b = some (3, payload) := by
  rw [lead, if_neg (by omega), if_neg (by omega), if_neg (by omega), if_neg (by omega),
    if_pos (by omega), h, Nat.add_sub_cancel]

end Lead

theorem spell_ofNat (k m : Nat) (rest : List Octet) (codePoint : Nat) :
    spell (k + 1) (BitVec.ofNat 8 (m % 64 + 0x80) :: rest) codePoint =
      spell k rest (codePoint * 64 + m % 64) := by
  have hb : (BitVec.ofNat 8 (m % 64 + 0x80)).toNat = m % 64 + 0x80 := by
    rw [BitVec.toNat_ofNat]
    omega
  rw [spell, if_pos (by rw [IsContinuation, hb]; omega), hb, Nat.add_sub_cancel]

theorem spell_short {k : Nat} {octets : List Octet} (h : octets.length < k) (codePoint : Nat) :
    spell k octets codePoint = none := by
  induction octets generalizing k codePoint with
  | nil =>
      obtain ⟨k, rfl⟩ := Nat.exists_eq_add_one_of_ne_zero (Nat.ne_zero_of_lt h)
      rfl
  | cons b octets ih =>
      obtain ⟨k, rfl⟩ := Nat.exists_eq_add_one_of_ne_zero (Nat.ne_zero_of_lt h)
      rw [spell]
      split
      · exact ih (Nat.lt_of_succ_lt_succ h) _
      · rfl

theorem spell_bounds {k payload codePoint : Nat} {octets : List Octet}
    (h : spell k octets payload = some codePoint) :
    payload * 64 ^ k ≤ codePoint ∧ codePoint < (payload + 1) * 64 ^ k := by
  induction k generalizing octets payload with
  | zero =>
      have hcode : payload = codePoint := Option.some_inj.mp h
      omega
  | succ k ih =>
      cases octets with
      | nil => exact absurd h.symm (Option.some_ne_none _)
      | cons b octets =>
          rw [spell] at h
          split at h
          · rename_i hb
            obtain ⟨hlow, hhigh⟩ := ih h
            have hbits : b.toNat - 0x80 + 1 ≤ 64 := by
              have hlt := hb.2
              omega
            rw [Nat.pow_succ]
            constructor
            · nlinarith [Nat.zero_le ((b.toNat - 0x80) * 64 ^ k)]
            · have hmul := Nat.mul_le_mul_right (64 ^ k) hbits
              nlinarith
          · exact absurd h.symm (Option.some_ne_none _)

theorem isValidChar_toNat (c : Char) : c.toNat.isValidChar := c.valid

theorem next_of_lead {b : Octet} {rest : List Octet} {k payload codePoint : Nat}
    (hlead : lead b = some (k, payload)) (hspell : spell k rest payload = some codePoint)
    (hfits : Fits k codePoint) : next (b :: rest) = some (k + 1) := by
  rw [next, hlead, Option.bind_some]
  simp only [hspell, Option.bind_some, if_pos hfits]

theorem next_encode (c : Char) (rest : List Octet) :
    next (encode c ++ rest) = some (encode c).length := by
  have hvalid := isValidChar_toNat c
  have hlt : c.toNat < 0x110000 := by
    rcases hvalid with h | h <;> omega
  rw [encode_eq]
  split
  · rename_i hone
    have hb : (BitVec.ofNat 8 c.toNat).toNat = c.toNat := by
      rw [BitVec.toNat_ofNat]
      omega
    exact next_of_lead (lead_ascii (by omega)) rfl ⟨Nat.zero_le _, hb.symm ▸ hvalid⟩
  · split
    · rename_i hone htwo
      have hb : (BitVec.ofNat 8 (c.toNat / 64 % 32 + 0xC0)).toNat = c.toNat / 64 + 0xC0 := by
        rw [BitVec.toNat_ofNat]
        omega
      have hvalue : c.toNat / 64 * 64 + c.toNat % 64 = c.toNat := by omega
      refine next_of_lead (lead_two hb (by omega)) (spell_ofNat 0 _ _ _) ?_
      rw [hvalue]
      exact ⟨show 0x80 ≤ c.toNat by omega, hvalid⟩
    · split
      · rename_i hone htwo hthree
        have hb : (BitVec.ofNat 8 (c.toNat / 4096 % 16 + 0xE0)).toNat = c.toNat / 4096 + 0xE0 := by
          rw [BitVec.toNat_ofNat]
          omega
        have hvalue : (c.toNat / 4096 * 64 + c.toNat / 64 % 64) * 64 + c.toNat % 64 = c.toNat := by
          omega
        refine next_of_lead (lead_three hb (by omega))
          ((spell_ofNat 1 _ _ _).trans (spell_ofNat 0 _ _ _)) ?_
        rw [hvalue]
        exact ⟨show 0x800 ≤ c.toNat by omega, hvalid⟩
      · rename_i hone htwo hthree
        have hb : (BitVec.ofNat 8 (c.toNat / 262144 % 8 + 0xF0)).toNat =
            c.toNat / 262144 + 0xF0 := by
          rw [BitVec.toNat_ofNat]
          omega
        have hvalue : ((c.toNat / 262144 * 64 + c.toNat / 4096 % 64) * 64 + c.toNat / 64 % 64) * 64
            + c.toNat % 64 = c.toNat := by omega
        refine next_of_lead (lead_four hb (by omega))
          ((spell_ofNat 2 _ _ _).trans ((spell_ofNat 1 _ _ _).trans (spell_ofNat 0 _ _ _))) ?_
        rw [hvalue]
        exact ⟨show 0x10000 ≤ c.toNat by omega, hvalid⟩

theorem exists_toNat_eq {codePoint : Nat} (h : codePoint.isValidChar) :
    ∃ c : Char, c.toNat = codePoint := ⟨Char.ofNatAux codePoint h, rfl⟩

theorem spell_cases {k payload codePoint : Nat} {octets : List Octet}
    (h : spell (k + 1) octets payload = some codePoint) :
    ∃ low rest, low < 64 ∧ octets = BitVec.ofNat 8 (low + 0x80) :: rest ∧
      spell k rest (payload * 64 + low) = some codePoint := by
  cases octets with
  | nil => exact absurd h.symm (Option.some_ne_none _)
  | cons b rest =>
      rw [spell] at h
      split at h
      · rename_i hb
        have hbits : b.toNat - 0x80 + 0x80 = b.toNat := Nat.sub_add_cancel hb.1
        refine ⟨b.toNat - 0x80, rest, by have hlt := hb.2; omega, ?_, h⟩
        rw [hbits, BitVec.ofNat_toNat, BitVec.setWidth_eq]
      · exact absurd h.symm (Option.some_ne_none _)

theorem lead_cases {b : Octet} {k payload : Nat} (h : lead b = some (k, payload)) :
    (k = 0 ∧ payload < 0x80 ∧ b = BitVec.ofNat 8 payload) ∨
    (k = 1 ∧ payload < 0x20 ∧ b = BitVec.ofNat 8 (payload + 0xC0)) ∨
    (k = 2 ∧ payload < 0x10 ∧ b = BitVec.ofNat 8 (payload + 0xE0)) ∨
    (k = 3 ∧ payload < 8 ∧ b = BitVec.ofNat 8 (payload + 0xF0)) := by
  have hb : ∀ n, b.toNat = n → b = BitVec.ofNat 8 n := by
    rintro n rfl
    rw [BitVec.ofNat_toNat, BitVec.setWidth_eq]
  rw [lead] at h
  split at h
  · obtain ⟨rfl, rfl⟩ := Prod.mk.injEq .. ▸ Option.some_inj.mp h
    exact .inl ⟨rfl, by assumption, hb _ rfl⟩
  · split at h
    · exact absurd h.symm (Option.some_ne_none _)
    · split at h
      · obtain ⟨rfl, rfl⟩ := Prod.mk.injEq .. ▸ Option.some_inj.mp h
        exact .inr (.inl ⟨rfl, by omega, hb _ (by omega)⟩)
      · split at h
        · obtain ⟨rfl, rfl⟩ := Prod.mk.injEq .. ▸ Option.some_inj.mp h
          exact .inr (.inr (.inl ⟨rfl, by omega, hb _ (by omega)⟩))
        · split at h
          · obtain ⟨rfl, rfl⟩ := Prod.mk.injEq .. ▸ Option.some_inj.mp h
            exact .inr (.inr (.inr ⟨rfl, by omega, hb _ (by omega)⟩))
          · exact absurd h.symm (Option.some_ne_none _)

theorem lead_le {b : Octet} {k payload : Nat} (h : lead b = some (k, payload)) : k ≤ 3 := by
  rcases lead_cases h with ⟨rfl, -⟩ | ⟨rfl, -⟩ | ⟨rfl, -⟩ | ⟨rfl, -⟩ <;> decide

theorem encode_of_next {octets : List Octet} {n : Nat} (h : next octets = some n) :
    ∃ c rest, octets = encode c ++ rest ∧ n = (encode c).length := by
  cases octets with
  | nil => exact absurd h.symm (Option.some_ne_none _)
  | cons b octets =>
      rw [next] at h
      obtain ⟨⟨k, payload⟩, hlead, h⟩ := Option.bind_eq_some_iff.mp h
      obtain ⟨codePoint, hspell, h⟩ := Option.bind_eq_some_iff.mp h
      split at h
      · rename_i hfits
        obtain ⟨hleast, hvalid⟩ := hfits
        obtain ⟨c, hc⟩ := exists_toNat_eq hvalid
        refine ⟨c, octets.drop k, ?_⟩
        rw [encode_eq, hc, ← Option.some_inj.mp h]
        rcases lead_cases hlead with ⟨rfl, hlt, rfl⟩ | ⟨rfl, hlt, rfl⟩ | ⟨rfl, hlt, rfl⟩ |
          ⟨rfl, hlt, rfl⟩
        · have hcode : payload = codePoint := Option.some_inj.mp hspell
          rw [if_pos (by omega), hcode]
          exact ⟨rfl, rfl⟩
        · obtain ⟨low, rest, hlow, rfl, hlast⟩ := spell_cases hspell
          have hcode : payload * 64 + low = codePoint := Option.some_inj.mp hlast
          have hleast' : 0x80 ≤ codePoint := hleast
          rw [if_neg (by omega), if_pos (by omega), show codePoint / 64 % 32 = payload by omega,
            show codePoint % 64 = low by omega]
          exact ⟨rfl, rfl⟩
        · obtain ⟨high, rest, hhigh, rfl, htail⟩ := spell_cases hspell
          obtain ⟨low, rest, hlow, rfl, hlast⟩ := spell_cases htail
          have hcode : (payload * 64 + high) * 64 + low = codePoint := Option.some_inj.mp hlast
          have hleast' : 0x800 ≤ codePoint := hleast
          rw [if_neg (by omega), if_neg (by omega), if_pos (by omega),
            show codePoint / 4096 % 16 = payload by omega,
            show codePoint / 64 % 64 = high by omega, show codePoint % 64 = low by omega]
          exact ⟨rfl, rfl⟩
        · obtain ⟨high, rest, hhigh, rfl, htail⟩ := spell_cases hspell
          obtain ⟨mid, rest, hmid, rfl, htail'⟩ := spell_cases htail
          obtain ⟨low, rest, hlow, rfl, hlast⟩ := spell_cases htail'
          have hcode : ((payload * 64 + high) * 64 + mid) * 64 + low = codePoint :=
            Option.some_inj.mp hlast
          have hleast' : 0x10000 ≤ codePoint := hleast
          rw [if_neg (by omega), if_neg (by omega), if_neg (by omega),
            show codePoint / 262144 % 8 = payload by omega,
            show codePoint / 4096 % 64 = high by omega,
            show codePoint / 64 % 64 = mid by omega, show codePoint % 64 = low by omega]
          exact ⟨rfl, rfl⟩
      · exact absurd h.symm (Option.some_ne_none _)

theorem wellFormed_cons_iff {b : Octet} {octets : List Octet} :
    WellFormed (b :: octets) ↔
      ∃ n, next (b :: octets) = some n ∧ WellFormed ((b :: octets).drop n) := by
  constructor
  · rintro ⟨text, htext⟩
    cases text with
    | nil => exact absurd htext (List.cons_ne_nil b octets)
    | cons c text =>
        rw [List.flatMap_cons] at htext
        rw [htext]
        exact ⟨_, next_encode c _, text, List.drop_left⟩
  · rintro ⟨n, hnext, text, htext⟩
    obtain ⟨c, rest, hfront, rfl⟩ := encode_of_next hnext
    rw [hfront, List.drop_left] at htext
    exact ⟨c :: text, by rw [List.flatMap_cons, ← htext, hfront]⟩

theorem wellFormed_nil : WellFormed [] := ⟨[], rfl⟩

theorem next_le {octets : List Octet} {n : Nat} (h : next octets = some n) :
    0 < n ∧ n ≤ octets.length := by
  obtain ⟨c, rest, rfl, rfl⟩ := encode_of_next h
  refine ⟨?_, by rw [List.length_append]; omega⟩
  rw [encode, List.length_map]
  exact List.length_pos_of_ne_nil String.utf8EncodeChar_ne_nil

end Utf8
