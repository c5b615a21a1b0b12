import V6Emul.Recorder.RoundTrip

/-!
# Going on from a saved recording

A recording saved at the newest frame's start is played from as the original
is, if the target's leftovers do not show: the last four bytes of its RAM
snapshot and the logs in slots that receive a frame without stores.
-/

namespace V6Emul

open Packed

namespace Recorder

def retained (r : Recorder) (i : Nat) : HwState :=
  r.states ((r.stateIdx + r.recordFrames + i + 1 - r.stateCurrent) % r.recordFrames)

/-- Loading what `r` saves gives back its fields, its states and its playback. -/
structure Restores (r : Recorder) (m : Machine) (r₀ : Recorder) (m₀ : Machine) (r' : Recorder)
    (m' : Machine) : Prop where
  loaded : r₀.deserialize r.serialize m₀ = some (r', m')
  ram : r'.ram = r.ram
  recorded : r'.stateRecorded = r.stateRecorded
  current : r'.stateCurrent = r.stateCurrent
  last : r'.lastRecord = r.lastRecord
  states : ∀ i < r.stateRecorded, r'.retained i = r.retained i
  machine : m'.frame = ⟨r.state.saved, r.ram⟩
  plays : ∀ ps, (r'.playAll m' ps).2.frame = (r.playAll m ps).2.frame

structure Reloadable (r : Recorder) (m : Machine) (r₀ : Recorder) : Prop where
  stored : 1 ≤ r.stateRecorded
  fits : r.stateRecorded ≤ r.recordFrames
  newest : r.stateCurrent = r.stateRecorded
  contiguous : r.recordFrames ∣ sizeT ∨ r.stateRecorded ≤ r.stateIdx + 1
  lengths : ∀ i < r.stateRecorded, (r.retained i).log.length < 2 ^ 31
  flag : r.lastRecord = true ∨ (r.retained 0).saved.cpu.cc.toNat % 2 ^ 56 = 0
  start : m.frame = ⟨r.state.saved, r.ram⟩
  tail : ∀ i : Fin memoryGlobalLen, memoryGlobalLen - 4 ≤ i.val → r₀.ram i = r.ram i
  logs : ∀ i < r.stateRecorded, (r.retained i).log = [] → (r₀.states i).log = []

namespace Reloadable

variable {r r₀ : Recorder} {m : Machine}

theorem firstStateIdx_eq (h : r.Reloadable m r₀) (hidx : r.stateIdx < r.recordFrames) :
    r.firstStateIdx = (r.stateIdx + r.recordFrames + 1 - r.stateRecorded) % r.recordFrames := by
  have hle := r.recordFrames_le
  have hfits := h.fits
  have hsize : r.recordFrames + 1 < sizeT := by
    have hlt : r.recordFrames + 1 + 1 ≤ sizeT := lt_sizeT (by omega)
    omega
  rcases h.contiguous with hdvd | hroom
  · obtain ⟨c, hc⟩ := hdvd
    have hcpos : 1 ≤ c := by
      rcases Nat.eq_zero_or_pos c with hzero | hpos
      · rw [hzero, Nat.mul_zero] at hc
        omega
      · exact hpos
    have hmul : r.recordFrames * c = r.recordFrames * (c - 1) + r.recordFrames := by
      rw [Nat.mul_sub_one, Nat.sub_add_cancel (Nat.le_mul_of_pos_right _ hcpos)]
    have hsum : r.stateIdx + sizeT - r.stateRecorded + 1 =
        r.recordFrames * (c - 1) + (r.stateIdx + r.recordFrames + 1 - r.stateRecorded) := by
      rw [hc, hmul]
      omega
    rw [firstStateIdx, Nat.mod_mod_of_dvd _ ⟨c, hc⟩, hsum, Nat.mul_add_mod]
  · have hsum : r.stateIdx + sizeT - r.stateRecorded + 1 =
        r.stateIdx + 1 - r.stateRecorded + sizeT := by
      omega
    have hring : r.stateIdx + r.recordFrames + 1 - r.stateRecorded =
        r.stateIdx + 1 - r.stateRecorded + r.recordFrames := by
      omega
    have hmod : (r.stateIdx + 1 - r.stateRecorded) % sizeT = r.stateIdx + 1 - r.stateRecorded :=
      Nat.mod_eq_of_lt (by omega)
    rw [firstStateIdx, hsum, Nat.add_mod_right, hmod, hring, Nat.add_mod_right]

theorem length_serializedStates (h : r.Reloadable m r₀) (hidx : r.stateIdx < r.recordFrames) :
    r.serializedStates.length = r.stateRecorded := by
  have hle := r.recordFrames_le
  have hfits := h.fits
  have hfirst : r.firstStateIdx < r.recordFrames := Nat.mod_lt _ (by omega)
  have hstop : (r.firstStateIdx + r.stateRecorded) % sizeT = r.firstStateIdx + r.stateRecorded :=
    Nat.mod_eq_of_lt (by
      have hmax : recordFramesMax = 3000 := rfl
      have hsize : sizeT = 18446744073709551616 := by norm_num [sizeT]
      omega)
  rw [serializedStates, List.length_map, List.length_range', hstop, Nat.add_sub_cancel_left]

theorem slot_first (h : r.Reloadable m r₀) (hidx : r.stateIdx < r.recordFrames) (i : Nat) :
    Ring.slot r.recordFrames r.firstStateIdx i =
      (r.stateIdx + r.recordFrames + i + 1 - r.stateCurrent) % r.recordFrames := by
  have hfits := h.fits
  have hsum : r.stateIdx + r.recordFrames + 1 - r.stateRecorded + i =
      r.stateIdx + r.recordFrames + i + 1 - r.stateCurrent := by
    rw [h.newest]
    omega
  rw [Ring.slot, h.firstStateIdx_eq hidx, Nat.mod_add_mod, hsum]

theorem getElem_serializedStates (h : r.Reloadable m r₀) (hidx : r.stateIdx < r.recordFrames)
    (i : Nat) (hi : i < r.serializedStates.length) : r.serializedStates[i] = r.retained i := by
  rw [retained, ← h.slot_first hidx]
  simp only [serializedStates, List.getElem_map, List.getElem_range', Nat.one_mul]
  rfl

theorem plays (h : r.Reloadable m r₀) (hidx : r.stateIdx < r.recordFrames) :
    r.Plays r.serializedStates r.firstStateIdx := by
  have hstored := h.stored
  have hfits := h.fits
  have hlen := h.length_serializedStates hidx
  refine ⟨?_, by rw [h.newest]; exact hstored, by rw [hlen, h.newest], hlen.symm, ⟨?_, ?_⟩, ?_⟩
  · have hsum : r.stateIdx + r.recordFrames + (r.stateCurrent - 1) + 1 - r.stateCurrent =
        r.stateIdx + r.recordFrames := by
      rw [h.newest]
      omega
    rw [h.slot_first hidx, hsum, Nat.add_mod_right, Nat.mod_eq_of_lt hidx]
  · rw [hlen]
    exact hfits
  · intro i hi
    rw [h.getElem_serializedStates hidx i hi, retained, h.slot_first hidx]
  · refine h.contiguous.imp_right ?_
    intro hroom i hpos hi
    have hsum : r.stateIdx + r.recordFrames + i + 1 - r.stateCurrent =
        r.stateIdx + i + 1 - r.stateRecorded + r.recordFrames := by
      rw [h.newest]
      omega
    rw [hlen] at hi
    rw [h.slot_first hidx, hsum, Nat.add_mod_right, Nat.mod_eq_of_lt (by omega)]
    omega

end Reloadable

/-- Of a recording and a target that meet the conditions nothing is lost. -/
theorem Reachable.restores {r : Recorder} {m : Machine} (h : Reachable r m) (r₀ : Recorder)
    (m₀ : Machine) (hring : r₀.recordFrames = r.recordFrames) (hreload : r.Reloadable m r₀) :
    ∃ r' m', Restores r m r₀ m₀ r' m' := by
  have hformed := h.wellFormed
  have hidx := hformed.idx_lt
  have hstored := hreload.stored
  have hfits := hreload.fits
  have hmax := r.recordFrames_le
  have hlen := hreload.length_serializedStates hidx
  have hplays := hreload.plays hidx
  obtain ⟨s, l, hstates⟩ : ∃ s l, r.serializedStates = s :: l :=
    List.exists_cons_of_length_pos (by omega)
  have hcount : r.stateRecorded = l.length + 1 := by
    rw [← hlen, hstates, List.length_cons]
  have hencodable : ∀ x ∈ r.serializedStates, x.Encodable := by
    intro x hx
    obtain ⟨i, hi, rfl⟩ := List.mem_iff_getElem.mp hx
    rw [hreload.getElem_serializedStates hidx i hi]
    refine ⟨hreload.lengths i (by omega), ?_⟩
    intro e he
    have haddr := hformed.addr_lt _ e he
    rw [memoryGlobalLen_eq] at haddr
    omega
  have hversion : r.version &&& versionMask = formatVersion := by
    rw [hformed.version]
    rfl
  have hcurrent : r.stateCurrent < sizeT := by
    rw [hreload.newest]
    exact lt_sizeT (by omega)
  obtain ⟨slots, hloaded, hslots⟩ := r.deserialize_serialize r₀ m₀ hversion hcurrent
    (by rw [hring]; exact hfits) s l hstates hcount hencodable
  have hram : r.loadedRam r₀ = r.ram := by
    funext i
    rw [loadedRam]
    split
    · rfl
    · exact hreload.tail i (by omega)
  have holdest : s = r.retained 0 := by
    rw [← hreload.getElem_serializedStates hidx 0 (by omega)]
    simp only [hstates, List.getElem_cons_zero]
  have hflag : r.loadedFlag s = r.lastRecord := by
    rw [loadedFlag, holdest]
    rcases hreload.flag with htrue | hzero
    · rw [htrue, Bool.true_or]
    · rw [hzero, bne_self_eq_false, Bool.or_false]
  have hslot : ∀ i (hi : i < r.serializedStates.length), slots i = r.serializedStates[i] := by
    intro i hi
    rw [hslots i hi, HwState.mergeLog, hreload.getElem_serializedStates hidx i hi]
    split
    · rename_i hempty
      rw [hreload.logs i (by omega) hempty, ← hempty]
    · rfl
  rw [hram, hflag] at hloaded
  have hnewest : slots (r.stateRecorded - 1) = r.state := by
    have hstate := hplays.state
    rw [hreload.newest, List.getElem?_eq_getElem (by omega)] at hstate
    rw [hslot _ (by omega)]
    exact Option.some.inj hstate
  rw [hnewest] at hloaded
  have hsmall : ∀ i < r.stateRecorded, Ring.slot r₀.recordFrames 0 i = i := by
    intro i hi
    rw [Ring.slot, Nat.zero_add, Nat.mod_eq_of_lt (by omega)]
  refine ⟨_, _, hloaded, rfl, rfl, rfl, rfl, ?states, rfl, ?plays⟩
  case states =>
    intro i hi
    have hsum : r.stateRecorded - 1 + r₀.recordFrames + i + 1 - r.stateCurrent =
        i + r₀.recordFrames := by
      rw [hreload.newest]
      omega
    change slots ((r.stateRecorded - 1 + r₀.recordFrames + i + 1 - r.stateCurrent) %
      r₀.recordFrames) = _
    rw [hsum, Nat.add_mod_right, Nat.mod_eq_of_lt (by omega), hslot i (by omega),
      hreload.getElem_serializedStates hidx]
  case plays =>
    intro ps
    symm
    apply Alike.playAll
    refine ⟨⟨r.serializedStates, r.firstStateIdx, 0, hplays, ?_⟩, rfl, rfl, ?_⟩
    · refine ⟨?_, hplays.current_pos, hplays.current_le, hplays.recorded, ⟨?_, ?_⟩, .inr ?_⟩
      · change r.stateRecorded - 1 = Ring.slot r₀.recordFrames 0 (r.stateCurrent - 1)
        rw [hreload.newest, hsmall _ (by omega)]
      · change r.serializedStates.length ≤ r₀.recordFrames
        omega
      · intro i hi
        change slots (Ring.slot r₀.recordFrames 0 i) = _
        rw [hsmall i (by omega), hslot i hi]
      · intro i hpos hi
        change 0 < Ring.slot r₀.recordFrames 0 i
        rw [hsmall i (by omega)]
        exact hpos
    · exact hreload.start

/-! ## What of the target is kept -/

theorem deserialize_tail {data : List Byte} {r r' : Recorder} {m m' : Machine}
    (h : r.deserialize data m = some (r', m')) (i : Fin memoryGlobalLen)
    (hi : memoryGlobalLen - 4 ≤ i.val) : r'.ram i = r.ram i := by
  obtain ⟨version, rest, -, ⟨-, rfl, -⟩ | ⟨-, hbody⟩⟩ := deserialize_cases h
  · rfl
  · obtain ⟨bytes, _, _, _, _, _, _, _, loaded, hbytes, -, -, -, -, hrestore⟩ :=
      deserializeBody_cases hbody
    obtain ⟨-, rfl, -⟩ := restoreState_cases hrestore
    have hlen : bytes.length ≤ i.val := by
      rw [Layout.byte.length_of_readList hbytes]
      exact hi
    change copyRam r.ram bytes i = r.ram i
    rw [copyRam, List.getD_eq_getElem?_getD, List.getElem?_eq_none hlen]
    rfl

/-- A witness: a recording of two frames with a store, loaded by a new recorder. -/
theorem restores_storeRun :
    ∃ r' m', Restores (storeRun 4 1).1 (storeRun 4 1).2 (new 4) (machineAt 0 fun _ => 0) r' m' := by
  have hreach := (Reachable.new 4 (machineAt 0 fun _ => 0) (by decide)).reset.update
    (storing (machineAt 0 fun _ => 0) 1 1) (by decide)
  have htwo : ∀ i < (storeRun 4 1).1.stateRecorded, i = 0 ∨ i = 1 := by
    intro i hi
    have hlt : i < 2 := hi
    omega
  refine hreach.restores (new 4) _ rfl ⟨by decide, by decide, by decide, .inl (by decide), ?_,
    .inl rfl, rfl, ?_, fun _ _ _ => rfl⟩
  · intro i hi
    rcases htwo i hi with rfl | rfl <;> decide
  · intro i hi
    have hne : i.val ≠ 0 := by
      have hlen := memoryGlobalLen_eq
      omega
    change (0 : Byte) = Ram.write (fun _ => 0) 0 1 i
    simp [Ram.write, hne]

/-- A target whose RAM snapshot ends with another byte keeps it. -/
theorem restores_fails_at_ram_end :
    ∃ r m r₀ m₀, Reachable r m ∧ Reachable r₀ m₀ ∧ r₀.recordFrames = r.recordFrames ∧
      ¬ ∃ r' m', Restores r m r₀ m₀ r' m' := by
  refine ⟨_, _, _, _, (Reachable.new 4 (machineAt 0 fun _ => 0) (by decide)).reset,
    (Reachable.new 4 (machineAt 0 fun _ => 1) (by decide)).reset, rfl, ?_⟩
  rintro ⟨r', m', hrestores⟩
  have hlast : memoryGlobalLen - 1 < memoryGlobalLen := by
    rw [memoryGlobalLen_eq]
    omega
  have hkept := deserialize_tail hrestores.loaded ⟨memoryGlobalLen - 1, hlast⟩ 
    (Nat.sub_le_sub_left (by decide) memoryGlobalLen)
  rw [hrestores.ram] at hkept
  have hbytes : (0 : Byte) = 1 := hkept
  revert hbytes
  decide

end Recorder

end V6Emul
