import V6Emul.Foundation.Layout

/-!
# Length-prefixed frames

A stream of bytes is cut into frames: the length of a payload in `w` bytes, then the
payload.  A reader takes frames off the front until the length is 0, is over a limit, or
announces more than there is.
-/

namespace Packed

def frame (w : Nat) (payload : List (BitVec 8)) : List (BitVec 8) :=
  toLE w payload.length ++ payload

def unframe (w limit : Nat) (stream : List (BitVec 8)) :
    Option (List (BitVec 8) × List (BitVec 8)) :=
  let len := ofLE (stream.take w)
  if w ≤ stream.length ∧ 0 < len ∧ len ≤ limit ∧ len ≤ (stream.drop w).length then
    some ((stream.drop w).take len, (stream.drop w).drop len)
  else none

structure Admitted (limit : Nat) (payload : List (BitVec 8)) : Prop where
  pos : 0 < payload.length
  le : payload.length ≤ limit

section

variable {w limit : Nat} {payload rest stream : List (BitVec 8)}

theorem unframe_frame (hlimit : limit < 256 ^ w) (hadm : Admitted limit payload) :
    unframe w limit (frame w payload ++ rest) = some (payload, rest) := by
  have hmod : payload.length % 256 ^ w = payload.length :=
    Nat.mod_eq_of_lt (Nat.lt_of_le_of_lt hadm.le hlimit)
  have hpos := hadm.pos
  have hle := hadm.le
  simp [unframe, frame, ofLE_toLE, hmod, hpos, hle]

theorem unframe_eq_some (h : unframe w limit stream = some (payload, rest)) :
    stream = frame w payload ++ rest ∧ Admitted limit payload := by
  rw [unframe] at h
  split at h
  · rename_i hlen
    obtain ⟨hw, hpos, hlimit, hle⟩ := hlen
    rw [Option.some_inj, Prod.mk.injEq] at h
    obtain ⟨rfl, rfl⟩ := h
    have hpayload : ((stream.drop w).take (ofLE (stream.take w))).length =
        ofLE (stream.take w) := by simpa using hle
    have hpart : toLE w (ofLE (stream.take w)) = stream.take w := by
      have hback := toLE_ofLE (stream.take w)
      rwa [List.length_take, Nat.min_eq_left hw] at hback
    refine ⟨?_, ⟨by rwa [hpayload], by rwa [hpayload]⟩⟩
    rw [frame, hpayload, hpart, List.append_assoc, List.take_append_drop,
      List.take_append_drop]
  · simp at h

theorem unframe_length_lt (h : unframe w limit stream = some (payload, rest)) :
    rest.length < stream.length := by
  obtain ⟨rfl, hadm⟩ := unframe_eq_some h
  have hpos := hadm.pos
  simp [frame]
  omega

end

def payloads (w limit : Nat) (stream : List (BitVec 8)) : List (List (BitVec 8)) :=
  match _h : unframe w limit stream with
  | none => []
  | some (payload, rest) => payload :: payloads w limit rest
termination_by stream.length
decreasing_by exact unframe_length_lt ‹_›

section

variable {w limit : Nat}

theorem payloads_of_none {stream : List (BitVec 8)} (h : unframe w limit stream = none) :
    payloads w limit stream = [] := by
  rw [payloads]
  split
  · rfl
  · simp_all

theorem payloads_of_some {stream payload rest : List (BitVec 8)}
    (h : unframe w limit stream = some (payload, rest)) :
    payloads w limit stream = payload :: payloads w limit rest := by
  rw [payloads]
  split <;> simp_all

theorem payloads_frame {payload rest : List (BitVec 8)} (hlimit : limit < 256 ^ w)
    (hadm : Admitted limit payload) :
    payloads w limit (frame w payload ++ rest) = payload :: payloads w limit rest :=
  payloads_of_some (unframe_frame hlimit hadm)

theorem payloads_frames {sent : List (List (BitVec 8))} (hlimit : limit < 256 ^ w)
    (hadm : ∀ payload ∈ sent, Admitted limit payload) (rest : List (BitVec 8)) :
    payloads w limit (sent.flatMap (frame w) ++ rest) = sent ++ payloads w limit rest := by
  induction sent with
  | nil => simp
  | cons payload sent ih =>
      simp only [List.mem_cons, forall_eq_or_imp] at hadm
      simp [payloads_frame hlimit hadm.1, ih hadm.2]

theorem exists_remainder (stream : List (BitVec 8)) :
    ∃ rest, stream = (payloads w limit stream).flatMap (frame w) ++ rest ∧
      unframe w limit rest = none ∧
      ∀ payload ∈ payloads w limit stream, Admitted limit payload := by
  induction hn : stream.length using Nat.strong_induction_on generalizing stream with
  | _ n ih =>
      cases h : unframe w limit stream with
      | none => exact ⟨stream, by simp [payloads_of_none h], h, by simp [payloads_of_none h]⟩
      | some next =>
          obtain ⟨payload, rest⟩ := next
          obtain ⟨rest', hrest, hnone, hadm⟩ := ih rest.length (hn ▸ unframe_length_lt h) rest rfl
          obtain ⟨hstream, hpayload⟩ := unframe_eq_some h
          rw [payloads_of_some h]
          refine ⟨rest', ?_, hnone, by simpa using ⟨hpayload, hadm⟩⟩
          conv_lhs => rw [hstream, hrest]
          simp

theorem payloads_prefix {stream whole : List (BitVec 8)} (hlimit : limit < 256 ^ w)
    (hpart : stream <+: whole) : payloads w limit stream <+: payloads w limit whole := by
  obtain ⟨more, rfl⟩ := hpart
  obtain ⟨rest, hstream, -, hadm⟩ :
      ∃ rest, stream = (payloads w limit stream).flatMap (frame w) ++ rest ∧
        unframe w limit rest = none ∧
        ∀ payload ∈ payloads w limit stream, Admitted limit payload := exists_remainder stream
  have hwhole := payloads_frames hlimit hadm (rest ++ more)
  rw [← List.append_assoc, ← hstream] at hwhole
  exact ⟨_, hwhole.symm⟩

end

end Packed
