import V6Emul.Recorder.Loading
import V6Emul.Recorder.Safety

/-!
# Where playback ends

A play call sets the machine to saved states, and the last of them remains.  Its slot
follows from the positions alone, before anything is played; a load sets the last state
of its data.
-/

namespace V6Emul

open Packed

/-! ## The state that playback sets -/

namespace Recorder

def forwardOne (r : Recorder) : Recorder :=
  { r with stateIdx := r.nextIdx, stateCurrent := (r.stateCurrent + 1) % sizeT }

def reverseOne (r : Recorder) : Recorder :=
  if r.lastRecord then r.park
  else { r with
    stateIdx := r.prevIdx
    stateCurrent := (r.stateCurrent + sizeT - 1) % sizeT }

def forwardSlot : Nat → Recorder → Option Nat
  | 0, _ => none
  | frames + 1, r =>
      if r.stateCurrent = r.stateRecorded then none
      else (forwardSlot frames r.forwardOne).or (some r.forwardOne.stateIdx)

def reverseSlot : Nat → Recorder → Option Nat
  | 0, _ => none
  | frames + 1, r =>
      if r.stateCurrent = 1 ∧ r.lastRecord = false then none
      else (reverseSlot frames r.reverseOne).or (some r.reverseOne.stateIdx)

def snapshotAt (r : Recorder) (s : Snapshot) (slot : Option Nat) : Snapshot :=
  slot.elim s fun i => (r.states i).saved

theorem playForwardLoop_snapshot (frames : Nat) (r : Recorder) (m : Machine) :
    (r.playForwardLoop frames m).2.mem.mappings = m.mem.mappings ∧
      (r.playForwardLoop frames m).2.snapshot =
        r.snapshotAt m.snapshot (forwardSlot frames r) := by
  induction frames generalizing r m with
  | zero => exact ⟨rfl, rfl⟩
  | succ frames ih =>
      rw [playForwardLoop, forwardSlot]
      split
      · exact ⟨rfl, rfl⟩
      · obtain ⟨hmappings, hsnapshot⟩ := ih (r.stepForward m).1 (r.stepForward m).2
        refine ⟨hmappings, hsnapshot.trans ?_⟩
        have hnext : (r.stepForward m).1 = r.forwardOne := rfl
        rw [hnext]
        cases forwardSlot frames r.forwardOne with
        | none => rfl
        | some i => rfl

theorem playReverseLoop_snapshot (frames : Nat) (r : Recorder) (m : Machine) :
    (r.playReverseLoop frames m).2.mem.mappings = m.mem.mappings ∧
      (r.playReverseLoop frames m).2.snapshot =
        r.snapshotAt m.snapshot (reverseSlot frames r) := by
  induction frames generalizing r m with
  | zero => exact ⟨rfl, rfl⟩
  | succ frames ih =>
      rw [playReverseLoop, reverseSlot]
      split
      · exact ⟨rfl, rfl⟩
      · obtain ⟨hmappings, hsnapshot⟩ := ih (r.stepReverse m).1 (r.stepReverse m).2
        refine ⟨hmappings, hsnapshot.trans ?_⟩
        have hnext : (r.stepReverse m).1 = r.reverseOne := rfl
        have hstates : r.reverseOne.states = r.states := by
          rw [reverseOne]
          split <;> rfl
        have hset : (r.stepReverse m).2.snapshot = r.reverseOne.state.saved := rfl
        rw [hnext, hset, state, hstates]
        cases reverseSlot frames r.reverseOne with
        | none => rfl
        | some i =>
            change (r.reverseOne.states i).saved = (r.states i).saved
            rw [hstates]

/-! ## The state that a load sets -/

def savedAt : Nat → List Byte → Snapshot
  | 0, data => Layouts.snapshot.decode (data.take 79)
  | i + 1, data => savedAt i (data.drop (stateLen + 6 * (memUpdates data).toNat))

def lastSaved (data : List Byte) : Snapshot :=
  savedAt (statesCount data - 1) (data.drop headerLen)

end Recorder

theorem HwState.read_cases {old s : HwState} {data rest : List Byte}
    (h : old.read data = some (s, rest)) :
    s.saved = Layouts.snapshot.decode (data.take 79) ∧
      rest = data.drop (stateLen + 6 * (memUpdates data).toNat) := by
  rw [read] at h
  simp only [Option.bind_eq_bind, Option.bind_eq_some_iff] at h
  obtain ⟨⟨saved, data₁⟩, hsaved, ⟨updates, data₂⟩, hupdates, h⟩ := h
  obtain ⟨-, hsavedEq, hdata₁⟩ := Layouts.snapshot.read_cases hsaved
  obtain ⟨-, hupdatesEq, hdata₂⟩ := (Layout.uint 4).read_cases hupdates
  rw [Layouts.size_snapshot] at hsavedEq hdata₁
  have hcount : updates = memUpdates data := by
    rw [hupdatesEq, hdata₁]
    rfl
  have hrest : data₂ = data.drop 83 := by
    rw [hdata₂, hdata₁, List.drop_drop]
    rfl
  rw [← hcount, stateLen]
  split at h
  · rename_i hzero
    have hnone : updates.toNat = 0 := congrArg BitVec.toNat hzero
    simp only [Option.some_inj, Prod.mk.injEq] at h
    rw [← h.1, ← h.2, hsavedEq, hrest, hnone]
    exact ⟨rfl, rfl⟩
  · split at h
    · exact absurd h.symm (Option.some_ne_none _)
    · rw [Option.bind_eq_some_iff] at h
      obtain ⟨⟨log, data₃⟩, hlog, heq⟩ := h
      rw [readLog] at hlog
      simp only [Option.bind_eq_bind, Option.bind_eq_some_iff] at hlog
      obtain ⟨⟨_, d₁⟩, hwrites, ⟨_, d₂⟩, hbefores, ⟨_, d₃⟩, haddrs, hentries⟩ := hlog
      have hd₁ := Layout.byte.rest_of_readList hwrites
      have hd₂ := Layout.byte.rest_of_readList hbefores
      have hd₃ := (Layout.uint 4).rest_of_readList haddrs
      simp only [Option.pure_def, Option.some_inj, Prod.mk.injEq] at heq hentries
      refine ⟨by rw [← heq.1, hsavedEq], ?_⟩
      have hlen : 83 + (updates.toNat * Layout.byte.size + (updates.toNat * Layout.byte.size +
          updates.toNat * (Layout.uint 4).size)) = 83 + 6 * updates.toNat := by
        change 83 + (updates.toNat * 1 + (updates.toNat * 1 + updates.toNat * 4)) = _
        omega
      rw [← heq.2, ← hentries.2, hd₃, hd₂, hd₁, hrest, List.drop_drop, List.drop_drop,
        List.drop_drop, hlen]

namespace Recorder

theorem readStates_saved {count stateIdx : Nat} {r r' : Recorder} {data : List Byte}
    (h : readStates (count + 1) stateIdx r data = some r') :
    (r'.states ((stateIdx + count) % r.recordFrames)).saved = savedAt count data := by
  induction count generalizing stateIdx r data with
  | zero =>
      rw [readStates, Option.bind_eq_bind, Option.bind_eq_some_iff] at h
      obtain ⟨⟨s, rest⟩, hread, hrest⟩ := h
      rw [← Option.some_inj.mp hrest]
      simp only [Nat.add_zero, Function.update_self]
      exact (HwState.read_cases hread).1
  | succ count ih =>
      rw [readStates, Option.bind_eq_bind, Option.bind_eq_some_iff] at h
      obtain ⟨⟨s, rest⟩, hread, hrest⟩ := h
      have hlast := ih hrest
      have hsum : stateIdx + 1 + count = stateIdx + (count + 1) := by
        omega
      rw [hsum, (HwState.read_cases hread).2] at hlast
      exact hlast

theorem deserialize_snapshot {data : List Byte} {r r' : Recorder} {m m' : Machine}
    (h : r.deserialize data m = some (r', m')) :
    m'.mem.mappings = m.mem.mappings ∧
      m'.snapshot =
        if (Layout.uint 4).decode (data.take 4) &&& versionMask = formatVersion then
          lastSaved data
        else m.snapshot := by
  obtain ⟨version, rest, hread, hcases⟩ := deserialize_cases h
  obtain ⟨hlen, hvalue, -⟩ := (Layout.uint 8).read_cases hread
  have hversion : version.setWidth 32 = (Layout.uint 4).decode (data.take 4) := by
    rw [hvalue]
    exact decode_version hlen
  rw [hversion] at hcases
  rcases hcases with ⟨hwrong, -, rfl⟩ | ⟨hright, hbody⟩
  · rw [if_neg hwrong]
    exact ⟨rfl, rfl⟩
  · rw [if_pos hright]
    obtain ⟨_, stateRecorded, _, _, _, data₁, data₂, _, loaded, -, hrecorded, hcurrent, -,
      hloaded, hrestore⟩ := deserializeBody_cases hbody
    obtain ⟨hidx, -, rfl⟩ := restoreState_cases hrestore
    refine ⟨rfl, ?_⟩
    obtain ⟨-, hcount, hdata₁⟩ := (Layout.uint 8).read_cases hrecorded
    obtain ⟨-, -, hdata₂⟩ := (Layout.uint 8).read_cases hcurrent
    have hstates : stateRecorded.toNat = statesCount data := by
      rw [hcount, List.drop_drop]
      rfl
    have hlt : stateRecorded.toNat < sizeT := stateRecorded.isLt
    obtain ⟨states, hring⟩ := readStates_cases hloaded
    have hmax := r.recordFrames_le
    -- with no state at all the index would be far outside the ring
    have hpos : 1 ≤ statesCount data := by
      by_contra hzero
      have hnone : stateRecorded.toNat = 0 := by
        omega
      rw [hring] at hidx
      change (stateRecorded.toNat + sizeT - 1) % sizeT < r.recordFrames at hidx
      rw [hnone, Nat.zero_add, Nat.mod_eq_of_lt (by rw [sizeT]; omega)] at hidx
      have hsize := @lt_sizeT (recordFramesMax + 1) (Nat.le_refl _)
      omega
    obtain ⟨n, hn⟩ := Nat.exists_eq_add_of_le' hpos
    rw [hstates, hn] at hloaded
    have hlast := readStates_saved hloaded
    have hslot : loaded.stateIdx = n := by
      rw [hring]
      change (stateRecorded.toNat + sizeT - 1) % sizeT = n
      rw [newestIdx_eq (by omega) hlt, hstates, hn, Nat.add_sub_cancel]
    have hroom : n < r.recordFrames := by
      rw [hslot, hring] at hidx
      exact hidx
    have hstart : data₂.drop 1 = data.drop headerLen := by
      rw [hdata₂, hdata₁, List.drop_drop, List.drop_drop, List.drop_drop, List.drop_drop, headerLen]
      rfl
    have hnewest : (loaded.states n).saved = lastSaved data := by
      have hmod : (0 + n) % r.recordFrames = n := by
        rw [Nat.zero_add, Nat.mod_eq_of_lt hroom]
      rw [lastSaved, hn, Nat.add_sub_cancel, ← hstart, ← hlast]
      exact congrArg (fun i => (loaded.states i).saved) hmod.symm
    change (loaded.states loaded.stateIdx).saved = _
    rw [hslot, hnewest]

end Recorder

end V6Emul
