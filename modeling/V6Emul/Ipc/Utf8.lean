import Mathlib.Tactic.Linarith
import V6Emul.Foundation.Utf8
import V6Emul.Memory

/-!
# The validators of UTF-8

Requests and scripts check their texts with functions of their own.  Both go from lead
byte to lead byte; they differ in the lead bytes they sort out and in where they check
the code point instead.
-/

namespace V6Emul

/--
`for (size_t index = 0; index < value.size();)`: a turn ends with the next index or
leaves the loop with `false`; `none` when it reads past the end, or when `fuel` turns
were not enough.
-/
def utf8Loop (size : Nat) (turn : Nat → Option (Option Nat)) : Nat → Nat → Option Bool
  | 0, index => if index < size then none else some true
  | fuel + 1, index =>
      if index < size then
        (turn index).bind fun
          | none => some false
          | some index => utf8Loop size turn fuel index
      else some true

def readContinuations (value : List Byte) (index : Nat) : List Nat → Nat → Option (Option Nat)
  | [], codePoint => some (some codePoint)
  | offset :: offsets, codePoint => value[index + offset]?.bind fun continuation =>
      if continuation &&& 0xC0 ≠ 0x80 then some none
      else readContinuations value index offsets
        ((codePoint <<< 6) ||| (continuation &&& 0x3F).toNat)

namespace IpcRequest

def utf8Lead (first : Byte) : Option (Nat × Nat) :=
  if 0xC2 ≤ first ∧ first ≤ 0xDF then some (1, (first &&& 0x1F).toNat)
  else if 0xE0 ≤ first ∧ first ≤ 0xEF then some (2, (first &&& 0x0F).toNat)
  else if 0xF0 ≤ first ∧ first ≤ 0xF4 then some (3, (first &&& 0x07).toNat)
  else none

def utf8Turn (value : List Byte) (index : Nat) : Option (Option Nat) :=
  value[index]?.bind fun first =>
    if first ≤ 0x7F then some (some (index + 1))
    else match utf8Lead first with
    | none => some none
    | some (continuationCount, codePoint) =>
        if index + continuationCount ≥ value.length then some none
        else (readContinuations value index (List.range' 1 continuationCount) codePoint).bind fun
          | none => some none
          | some codePoint =>
              if (continuationCount = 2 ∧ codePoint < 0x800) ∨
                  (continuationCount = 3 ∧ codePoint < 0x10000) ∨
                  (0xD800 ≤ codePoint ∧ codePoint ≤ 0xDFFF) ∨ 0x10FFFF < codePoint then some none
              else some (some (index + (continuationCount + 1)))

def isValidUtf8 (value : List Byte) : Option Bool :=
  utf8Loop value.length (utf8Turn value) value.length 0

end IpcRequest

namespace Scripts

def utf8Lead (first : Byte) : Option (Nat × Nat) :=
  if first ≤ 0x7F then some (1, first.toNat)
  else if first &&& 0xE0 = 0xC0 then some (2, (first &&& 0x1F).toNat)
  else if first &&& 0xF0 = 0xE0 then some (3, (first &&& 0x0F).toNat)
  else if first &&& 0xF8 = 0xF0 then some (4, (first &&& 0x07).toNat)
  else none

def utf8Turn (value : List Byte) (index : Nat) : Option (Option Nat) :=
  value[index]?.bind fun first =>
    match utf8Lead first with
    | none => some none
    | some (length, codepoint) =>
        if index + length > value.length then some none
        else (readContinuations value index (List.range' 1 (length - 1)) codepoint).bind fun
          | none => some none
          | some codepoint =>
              if (length = 2 ∧ codepoint < 0x80) ∨ (length = 3 ∧ codepoint < 0x800) ∨
                  (length = 4 ∧ codepoint < 0x10000) ∨ 0x10FFFF < codepoint ∨
                  (0xD800 ≤ codepoint ∧ codepoint ≤ 0xDFFF) then some none
              else some (some (index + length))

def isValidUtf8 (value : List Byte) : Option Bool :=
  utf8Loop value.length (utf8Turn value) value.length 0

end Scripts

/-! ## A turn -/

theorem isContinuation_iff (b : Byte) : b &&& 0xC0 = 0x80 ↔ Utf8.IsContinuation b := by
  revert b
  decide +kernel

theorem toNat_continuation {b : Byte} (h : Utf8.IsContinuation b) :
    (b &&& 0x3F).toNat = b.toNat - 0x80 := by
  revert b
  decide +kernel

theorem readContinuations_eq (value : List Byte) (index start k codePoint : Nat)
    (hin : index + start + k ≤ value.length) :
    readContinuations value index (List.range' start k) codePoint =
      some (Utf8.spell k (value.drop (index + start)) codePoint) := by
  induction k generalizing start codePoint with
  | zero => rfl
  | succ k ih =>
      have hlt : index + start < value.length := by omega
      have hrest := ih (start + 1)
      rw [List.range'_succ, readContinuations, List.getElem?_eq_getElem hlt, Option.bind_some,
        List.drop_eq_getElem_cons hlt, Utf8.spell]
      by_cases hb : Utf8.IsContinuation value[index + start]
      · have hbits : codePoint <<< 6 ||| (value[index + start] &&& 0x3F).toNat =
            codePoint * 64 + (value[index + start].toNat - 0x80) := by
          have hlow := hb.2
          rw [toNat_continuation hb, ← Nat.shiftLeft_add_eq_or_of_lt (by omega), Nat.shiftLeft_eq]
        rw [if_neg (not_not_intro ((isContinuation_iff _).mpr hb)), if_pos hb, hbits]
        exact hrest _ (by omega)
      · rw [if_pos (fun h => hb ((isContinuation_iff _).mp h)), if_neg hb]

theorem ipcLead_eq (first : Byte) (h : ¬first ≤ 0x7F) :
    IpcRequest.utf8Lead first = (Utf8.lead first).filter fun (k, payload) =>
      decide ((k = 1 → 2 ≤ payload) ∧ (k = 3 → payload ≤ 4)) := by
  revert first
  decide +kernel

theorem scriptsLead_eq (first : Byte) : Scripts.utf8Lead first =
    (Utf8.lead first).map fun (k, payload) => (k + 1, payload) := by
  revert first
  decide +kernel

theorem lead_of_ascii {first : Byte} (h : first ≤ 0x7F) :
    Utf8.lead first = some (0, first.toNat) := by
  revert first
  decide +kernel

def Advances (value : List Byte) (turn : Nat → Option (Option Nat)) : Prop :=
  ∀ index, index < value.length →
    turn index = some ((Utf8.next (value.drop index)).map (index + ·))

theorem scripts_rejects {k codepoint : Nat} (hk : k ≤ 3) :
    (k + 1 = 2 ∧ codepoint < 0x80) ∨ (k + 1 = 3 ∧ codepoint < 0x800) ∨
      (k + 1 = 4 ∧ codepoint < 0x10000) ∨ 0x10FFFF < codepoint ∨
      (0xD800 ≤ codepoint ∧ codepoint ≤ 0xDFFF) ↔ ¬Utf8.Fits k codepoint := by
  have hvalid : codepoint.isValidChar ↔
      codepoint < 0xD800 ∨ 0xDFFF < codepoint ∧ codepoint < 0x110000 := Iff.rfl
  rw [Utf8.Fits, hvalid]
  obtain rfl | rfl | rfl | rfl : k = 0 ∨ k = 1 ∨ k = 2 ∨ k = 3 := by omega
  · rw [show Utf8.least 0 = 0 from rfl]
    omega
  · rw [show Utf8.least 1 = 0x80 from rfl]
    omega
  · rw [show Utf8.least 2 = 0x800 from rfl]
    omega
  · rw [show Utf8.least 3 = 0x10000 from rfl]
    omega

theorem ipc_rejects {k payload codePoint : Nat} {octets : List Byte} (hk : k ≤ 3) (hpos : 0 < k)
    (htwo : k = 1 → 2 ≤ payload) (hspell : Utf8.spell k octets payload = some codePoint) :
    (k = 2 ∧ codePoint < 0x800) ∨ (k = 3 ∧ codePoint < 0x10000) ∨
      (0xD800 ≤ codePoint ∧ codePoint ≤ 0xDFFF) ∨ 0x10FFFF < codePoint ↔
        ¬Utf8.Fits k codePoint := by
  rw [← scripts_rejects hk]
  have hlow := (Utf8.spell_bounds hspell).1
  obtain rfl | rfl | rfl : k = 1 ∨ k = 2 ∨ k = 3 := by omega
  · have hpayload := htwo rfl
    omega
  · omega
  · omega

theorem not_fits_of_lead {k payload codePoint : Nat} {octets : List Byte}
    (hspell : Utf8.spell k octets payload = some codePoint)
    (hlead : ¬((k = 1 → 2 ≤ payload) ∧ (k = 3 → payload ≤ 4))) : ¬Utf8.Fits k codePoint := by
  obtain ⟨hlow, hhigh⟩ := Utf8.spell_bounds hspell
  rintro ⟨hleast, hvalid⟩
  apply hlead
  constructor
  · rintro rfl
    have hleast' : 0x80 ≤ codePoint := hleast
    omega
  · rintro rfl
    have hvalid' : codePoint < 0xD800 ∨ 0xDFFF < codePoint ∧ codePoint < 0x110000 := hvalid
    omega

theorem lead_pos {first : Byte} {k payload : Nat} (h : ¬first ≤ 0x7F)
    (hlead : Utf8.lead first = some (k, payload)) : 0 < k := by
  rcases Utf8.lead_cases hlead with ⟨rfl, hlt, rfl⟩ | ⟨rfl, -⟩ | ⟨rfl, -⟩ | ⟨rfl, -⟩
  · exfalso
    apply h
    rw [BitVec.le_def, BitVec.toNat_ofNat]
    change payload % 256 ≤ 127
    omega
  all_goals decide

theorem scripts_advances (value : List Byte) : Advances value (Scripts.utf8Turn value) := by
  intro index hlt
  rw [Scripts.utf8Turn, List.getElem?_eq_getElem hlt, Option.bind_some, scriptsLead_eq,
    List.drop_eq_getElem_cons hlt, Utf8.next]
  cases hlead : Utf8.lead value[index] with
  | none => rfl
  | some found =>
      obtain ⟨k, payload⟩ := found
      simp only [Option.map_some, Option.bind_some, Nat.add_sub_cancel]
      by_cases hin : index + (k + 1) > value.length
      · rw [if_pos hin, Utf8.spell_short (by rw [List.length_drop]; omega)]
        rfl
      · rw [if_neg hin, readContinuations_eq value index 1 k payload (by omega), Option.bind_some]
        cases hspell : Utf8.spell k (value.drop (index + 1)) payload with
        | none => rfl
        | some codepoint =>
            simp only [Option.bind_some, scripts_rejects (Utf8.lead_le hlead)]
            by_cases hfits : Utf8.Fits k codepoint
            · rw [if_neg (not_not_intro hfits), if_pos hfits]
              rfl
            · rw [if_pos hfits, if_neg hfits]
              rfl

theorem ipc_advances (value : List Byte) : Advances value (IpcRequest.utf8Turn value) := by
  intro index hlt
  rw [IpcRequest.utf8Turn, List.getElem?_eq_getElem hlt, Option.bind_some,
    List.drop_eq_getElem_cons hlt, Utf8.next]
  by_cases hascii : value[index] ≤ 0x7F
  · rw [if_pos hascii, lead_of_ascii hascii]
    have hle : value[index].toNat ≤ 0x7F := hascii
    have hfits : Utf8.Fits 0 value[index].toNat := ⟨Nat.zero_le _, .inl (by omega)⟩
    simp only [Option.bind_some, Utf8.spell, if_pos hfits]
    rfl
  · rw [if_neg hascii, ipcLead_eq _ hascii]
    cases hlead : Utf8.lead value[index] with
    | none => rfl
    | some found =>
        obtain ⟨k, payload⟩ := found
        have hk := Utf8.lead_le hlead
        have hpos := lead_pos hascii hlead
        by_cases hkept : (k = 1 → 2 ≤ payload) ∧ (k = 3 → payload ≤ 4)
        · simp only [Option.filter_some, decide_eq_true hkept, if_true, Option.bind_some]
          by_cases hin : index + k ≥ value.length
          · rw [if_pos hin, Utf8.spell_short (by rw [List.length_drop]; omega)]
            rfl
          · rw [if_neg hin, readContinuations_eq value index 1 k payload (by omega),
              Option.bind_some]
            cases hspell : Utf8.spell k (value.drop (index + 1)) payload with
            | none => rfl
            | some codePoint =>
                simp only [Option.bind_some, ipc_rejects hk hpos hkept.1 hspell]
                by_cases hfits : Utf8.Fits k codePoint
                · rw [if_neg (not_not_intro hfits), if_pos hfits]
                  rfl
                · rw [if_pos hfits, if_neg hfits]
                  rfl
        · simp only [Option.filter_some, decide_eq_false hkept, Bool.false_eq_true, if_false,
            Option.bind_some]
          cases hspell : Utf8.spell k (value.drop (index + 1)) payload with
          | none => rfl
          | some codePoint =>
              rw [Option.bind_some, if_neg (not_fits_of_lead hspell hkept)]
              rfl

theorem utf8Loop_eq {value : List Byte} {turn : Nat → Option (Option Nat)}
    (h : Advances value turn) {fuel index : Nat} (hfuel : value.length ≤ index + fuel) :
    ∃ valid, utf8Loop value.length turn fuel index = some valid ∧
      (valid = true ↔ Utf8.WellFormed (value.drop index)) := by
  induction fuel generalizing index with
  | zero =>
      have hend : value.length ≤ index := hfuel
      rw [utf8Loop, if_neg (Nat.not_lt.mpr hend), List.drop_of_length_le hend]
      exact ⟨true, rfl, fun _ => Utf8.wellFormed_nil, fun _ => rfl⟩
  | succ fuel ih =>
      rw [utf8Loop]
      by_cases hlt : index < value.length
      · rw [if_pos hlt, h index hlt, Option.bind_some]
        have hcons : ∃ b octets, value.drop index = b :: octets :=
          ⟨_, _, List.drop_eq_getElem_cons hlt⟩
        obtain ⟨b, octets, hdrop⟩ := hcons
        cases hnext : Utf8.next (value.drop index) with
        | none =>
            refine ⟨false, rfl, fun hfalse => absurd hfalse Bool.false_ne_true, fun hwell => ?_⟩
            rw [hdrop] at hwell hnext
            obtain ⟨n, hn, -⟩ := Utf8.wellFormed_cons_iff.mp hwell
            rw [hnext] at hn
            exact absurd hn.symm (Option.some_ne_none n)
        | some n =>
            obtain ⟨hpos, -⟩ := Utf8.next_le hnext
            obtain ⟨valid, hloop, hvalid⟩ := @ih (index + n) (by omega)
            refine ⟨valid, hloop, hvalid.trans ?_⟩
            rw [← List.drop_drop]
            rw [hdrop] at hnext ⊢
            rw [Utf8.wellFormed_cons_iff]
            constructor
            · exact fun hrest => ⟨n, hnext, hrest⟩
            · rintro ⟨n', hn', hrest⟩
              obtain rfl : n = n' := Option.some_inj.mp (hnext.symm.trans hn')
              exact hrest
      · rw [if_neg hlt, List.drop_of_length_le (Nat.not_lt.mp hlt)]
        exact ⟨true, rfl, fun _ => Utf8.wellFormed_nil, fun _ => rfl⟩

/-- Both validators end inside the string, with the same answer: whether it is UTF-8. -/
theorem isValidUtf8_exact (value : List Byte) :
    ∃ valid, IpcRequest.isValidUtf8 value = some valid ∧ Scripts.isValidUtf8 value = some valid ∧
      (valid = true ↔ Utf8.WellFormed value) := by
  have hfuel : value.length ≤ 0 + value.length := by omega
  obtain ⟨valid, hipc, hwell⟩ := utf8Loop_eq (ipc_advances value) hfuel
  obtain ⟨valid', hscripts, hwell'⟩ := utf8Loop_eq (scripts_advances value) hfuel
  obtain rfl : valid = valid' := Bool.eq_iff_iff.mpr (hwell.trans hwell'.symm)
  exact ⟨valid, hipc, hscripts, hwell⟩

end V6Emul
