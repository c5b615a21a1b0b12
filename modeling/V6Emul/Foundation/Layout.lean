import Mathlib.Data.BitVec
import Mathlib.Data.List.OfFn

/-!
# Packed byte layouts

The bytes of a packed structure: numbers are little-endian, members follow one
another without padding.  A layout describes both directions of a copy between
a structure and its bytes.  Readers take a value off the front of what is left
of the data, and fail when that is too short.
-/

namespace Packed

/-! ## Little-endian numbers -/

def toLE : Nat → Nat → List (BitVec 8)
  | 0, _ => []
  | n + 1, x => BitVec.ofNat 8 x :: toLE n (x / 256)

def ofLE : List (BitVec 8) → Nat
  | [] => 0
  | b :: bs => b.toNat + 256 * ofLE bs

@[simp] theorem length_toLE (n x : Nat) : (toLE n x).length = n := by
  induction n generalizing x with
  | zero => rfl
  | succ n ih => rw [toLE, List.length_cons, ih]

theorem take_toLE (n k x : Nat) (h : k ≤ n) : (toLE n x).take k = toLE k x := by
  induction k generalizing n x with
  | zero => rfl
  | succ k ih =>
      obtain ⟨n, rfl⟩ := Nat.exists_eq_add_of_le' (Nat.lt_of_lt_of_le (Nat.zero_lt_succ k) h)
      rw [toLE, List.take_succ_cons, toLE, ih n (x / 256) (Nat.le_of_succ_le_succ h)]

theorem ofLE_toLE (n x : Nat) : ofLE (toLE n x) = x % 256 ^ n := by
  induction n generalizing x with
  | zero => rw [toLE, ofLE, Nat.pow_zero, Nat.mod_one]
  | succ n ih =>
      have hpow : 256 ^ (n + 1) = 256 * 256 ^ n := by
        rw [Nat.pow_succ, Nat.mul_comm]
      rw [toLE, ofLE, ih, BitVec.toNat_ofNat, hpow, Nat.mod_mul]

theorem toLE_ofLE (bs : List (BitVec 8)) : toLE bs.length (ofLE bs) = bs := by
  induction bs with
  | nil => rfl
  | cons b bs ih =>
      have hlow : BitVec.ofNat 8 (b.toNat + 256 * ofLE bs) = b := by
        apply BitVec.eq_of_toNat_eq
        rw [BitVec.toNat_ofNat, Nat.add_mul_mod_self_left, Nat.mod_eq_of_lt b.isLt]
      have hhigh : (b.toNat + 256 * ofLE bs) / 256 = ofLE bs := by
        rw [Nat.add_mul_div_left _ _ (by decide), Nat.div_eq_of_lt b.isLt, Nat.zero_add]
      rw [List.length_cons, toLE, ofLE, hlow, hhigh, ih]

theorem ofLE_lt (bs : List (BitVec 8)) : ofLE bs < 256 ^ bs.length := by
  induction bs with
  | nil => exact Nat.one_pos
  | cons b bs ih =>
      have hb := b.isLt
      rw [ofLE, List.length_cons, Nat.pow_succ]
      omega

theorem ofLE_append (bs cs : List (BitVec 8)) :
    ofLE (bs ++ cs) = ofLE bs + 256 ^ bs.length * ofLE cs := by
  induction bs with
  | nil => rw [List.nil_append, ofLE, List.length_nil, Nat.pow_zero, Nat.one_mul, Nat.zero_add]
  | cons b bs ih =>
      rw [List.cons_append, ofLE, ih, ofLE, List.length_cons, Nat.pow_succ,
        Nat.mul_comm (256 ^ bs.length) 256, Nat.mul_add, Nat.mul_assoc, Nat.add_assoc]

/-! ## Layouts -/

structure Layout (α : Type) where
  size : Nat
  encode : α → List (BitVec 8)
  decode : List (BitVec 8) → α
  length_encode : ∀ a, (encode a).length = size
  decode_encode : ∀ a, decode (encode a) = a

namespace Layout

variable {α β : Type}

def byte : Layout (BitVec 8) where
  size := 1
  encode b := [b]
  decode bs := bs.headD 0
  length_encode _ := rfl
  decode_encode _ := rfl

def uint (n : Nat) : Layout (BitVec (8 * n)) where
  size := n
  encode x := toLE n x.toNat
  decode bs := BitVec.ofNat (8 * n) (ofLE bs)
  length_encode x := length_toLE n x.toNat
  decode_encode x := by
    have hpow : 256 ^ n = 2 ^ (8 * n) := by
      rw [Nat.pow_mul]
    rw [ofLE_toLE, hpow, Nat.mod_eq_of_lt x.isLt, BitVec.ofNat_toNat, BitVec.setWidth_eq]

def bytes (n : Nat) : Layout (Fin n → BitVec 8) where
  size := n
  encode f := List.ofFn f
  decode bs i := bs.getD i 0
  length_encode f := List.length_ofFn
  decode_encode f := by
    funext i
    simp

theorem encode_bytes {n : Nat} (f : Fin n → BitVec 8) : (bytes n).encode f = List.ofFn f := rfl

def pair (a : Layout α) (b : Layout β) : Layout (α × β) where
  size := a.size + b.size
  encode x := a.encode x.1 ++ b.encode x.2
  decode bs := (a.decode (bs.take a.size), b.decode (bs.drop a.size))
  length_encode x := by
    rw [List.length_append, a.length_encode, b.length_encode]
  decode_encode x := by
    have hlen := a.length_encode x.1
    rw [List.take_left' hlen, List.drop_left' hlen, a.decode_encode, b.decode_encode]

def iso (a : Layout α) (f : α → β) (g : β → α) (h : ∀ b, f (g b) = b) : Layout β where
  size := a.size
  encode b := a.encode (g b)
  decode bs := f (a.decode bs)
  length_encode b := a.length_encode (g b)
  decode_encode b := by
    rw [a.decode_encode, h]

def bool : Layout Bool :=
  byte.iso (fun b => b != 0) (fun v => if v then 1 else 0) (by decide)

/-! ## Reading -/

variable (L : Layout α)

def read (data : List (BitVec 8)) : Option (α × List (BitVec 8)) :=
  if L.size ≤ data.length then some (L.decode (data.take L.size), data.drop L.size) else none

@[simp] theorem read_append (a : α) (rest : List (BitVec 8)) :
    L.read (L.encode a ++ rest) = some (a, rest) := by
  have hlen := L.length_encode a
  rw [read, if_pos (by rw [List.length_append, hlen]; exact Nat.le_add_right _ _),
    List.take_left' hlen, List.drop_left' hlen, L.decode_encode]

theorem read_of_le {data : List (BitVec 8)} (h : L.size ≤ data.length) :
    L.read data = some (L.decode (data.take L.size), data.drop L.size) :=
  if_pos h

theorem read_cases {data rest : List (BitVec 8)} {a : α} (h : L.read data = some (a, rest)) :
    L.size ≤ data.length ∧ a = L.decode (data.take L.size) ∧ rest = data.drop L.size := by
  rw [read] at h
  split at h
  · rename_i hle
    rw [Option.some_inj, Prod.mk.injEq] at h
    exact ⟨hle, h.1.symm, h.2.symm⟩
  · exact absurd h.symm (Option.some_ne_none _)

def encodeList (as : List α) : List (BitVec 8) := as.flatMap L.encode

def readList : Nat → List (BitVec 8) → Option (List α × List (BitVec 8))
  | 0, data => some ([], data)
  | n + 1, data => do
      let (a, data) ← L.read data
      let (as, data) ← readList n data
      return (a :: as, data)

@[simp] theorem length_encodeList (as : List α) :
    (L.encodeList as).length = as.length * L.size := by
  induction as with
  | nil => rw [encodeList, List.flatMap_nil, List.length_nil, List.length_nil, Nat.zero_mul]
  | cons a as ih =>
      rw [encodeList] at ih ⊢
      rw [List.flatMap_cons, List.length_append, L.length_encode, ih, List.length_cons,
        Nat.succ_mul, Nat.add_comm]

@[simp] theorem readList_append (as : List α) (rest : List (BitVec 8)) :
    L.readList as.length (L.encodeList as ++ rest) = some (as, rest) := by
  induction as with
  | nil => rfl
  | cons a as ih =>
      rw [encodeList] at ih ⊢
      rw [List.flatMap_cons, List.append_assoc, List.length_cons, readList, read_append]
      simp only [Option.bind_eq_bind, Option.bind_some, ih]
      rfl

theorem length_of_readList {n : Nat} {data rest : List (BitVec 8)} {as : List α}
    (h : L.readList n data = some (as, rest)) : as.length = n := by
  induction n generalizing data as rest with
  | zero =>
      rw [readList, Option.some_inj, Prod.mk.injEq] at h
      rw [← h.1, List.length_nil]
  | succ n ih =>
      rw [readList] at h
      simp only [Option.bind_eq_bind, Option.bind_eq_some_iff, Option.pure_def, Option.some_inj] at h
      obtain ⟨⟨a, data'⟩, -, ⟨as', rest'⟩, hrest, heq⟩ := h
      have hcons : a :: as' = as := congrArg Prod.fst heq
      rw [← hcons, List.length_cons, ih hrest]

theorem rest_of_readList {n : Nat} {data rest : List (BitVec 8)} {as : List α}
    (h : L.readList n data = some (as, rest)) : rest = data.drop (n * L.size) := by
  induction n generalizing data as rest with
  | zero =>
      rw [readList, Option.some_inj, Prod.mk.injEq] at h
      rw [Nat.zero_mul, List.drop_zero, h.2]
  | succ n ih =>
      rw [readList] at h
      simp only [Option.bind_eq_bind, Option.bind_eq_some_iff, Option.pure_def, Option.some_inj] at h
      obtain ⟨⟨a, data'⟩, hfirst, ⟨as', rest'⟩, hrest, heq⟩ := h
      have hlast : rest' = rest := congrArg Prod.snd heq
      obtain ⟨-, -, hdata⟩ := L.read_cases hfirst
      rw [← hlast, ih hrest, hdata, List.drop_drop, Nat.succ_mul, Nat.add_comm]

theorem readList_of_le (n : Nat) {data : List (BitVec 8)} (h : n * L.size ≤ data.length) :
    ∃ as, as.length = n ∧ L.readList n data = some (as, data.drop (n * L.size)) := by
  induction n generalizing data with
  | zero => exact ⟨[], rfl, by rw [Nat.zero_mul]; rfl⟩
  | succ n ih =>
      rw [Nat.succ_mul] at h
      have hle : n * L.size ≤ (data.drop L.size).length := by
        rw [List.length_drop]
        omega
      obtain ⟨as, hlen, hrest⟩ := ih hle
      refine ⟨L.decode (data.take L.size) :: as, by rw [List.length_cons, hlen], ?_⟩
      rw [readList, L.read_of_le (by omega)]
      simp only [Option.bind_eq_bind, Option.bind_some, hrest, List.drop_drop]
      rw [Nat.succ_mul, Nat.add_comm]
      rfl

theorem readList_byte (n : Nat) {data : List (BitVec 8)} (h : n ≤ data.length) :
    byte.readList n data = some (data.take n, data.drop n) := by
  induction n generalizing data with
  | zero => rfl
  | succ n ih =>
      cases data with
      | nil => exact absurd h (Nat.not_succ_le_zero n)
      | cons b data =>
          have hread : byte.read (b :: data) = some (b, data) := byte.read_append b data
          rw [readList, hread]
          simp only [Option.bind_eq_bind, Option.bind_some, ih (Nat.le_of_succ_le_succ h)]
          rfl

theorem setWidth_decode_uint {n k : Nat} (h : k ≤ n) {bs : List (BitVec 8)}
    (hlen : k ≤ bs.length) :
    ((uint n).decode bs).setWidth (8 * k) = (uint k).decode (bs.take k) := by
  have hpow : 256 ^ k = 2 ^ (8 * k) := by
    rw [Nat.pow_mul]
  have htake : (bs.take k).length = k := List.length_take_of_le hlen
  have hsplit : ofLE bs = ofLE (bs.take k) + 2 ^ (8 * k) * ofLE (bs.drop k) := by
    have happend := ofLE_append (bs.take k) (bs.drop k)
    rw [List.take_append_drop, htake, hpow] at happend
    exact happend
  apply BitVec.eq_of_toNat_eq
  change (BitVec.setWidth (8 * k) (BitVec.ofNat (8 * n) (ofLE bs))).toNat =
    (BitVec.ofNat (8 * k) (ofLE (bs.take k))).toNat
  rw [BitVec.toNat_setWidth, BitVec.toNat_ofNat, BitVec.toNat_ofNat,
    Nat.mod_mod_of_dvd _ (Nat.pow_dvd_pow 2 (Nat.mul_le_mul_left 8 h)), hsplit,
    Nat.add_mul_mod_self_left]

end Layout

end Packed
