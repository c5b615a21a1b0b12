import V6Emul.Recorder.LiveEdge

/-!
# One state per frame

`Update` stores a state when the display's frame number is not the one that the
recorder keeps beside the ring.  Playback moves the display back and not that
number, so the two agree again only where playback has come to the newest state.
-/

namespace V6Emul

/-! ## Frame numbers in the ring -/

def frameNumbers (first : BitVec 64) (n : Nat) : List (BitVec 64) :=
  (List.range n).map fun i => first + BitVec.ofNat 64 i

@[simp] theorem length_frameNumbers (first : BitVec 64) (n : Nat) :
    (frameNumbers first n).length = n := by
  simp [frameNumbers]

theorem getElem_frameNumbers (first : BitVec 64) {n i : Nat} (h : i < (frameNumbers first n).length) :
    (frameNumbers first n)[i] = first + BitVec.ofNat 64 i := by
  simp [frameNumbers]

theorem frameNumbers_succ (first : BitVec 64) (n : Nat) :
    frameNumbers first (n + 1) = frameNumbers first n ++ [first + BitVec.ofNat 64 n] := by
  simp [frameNumbers, List.range_succ]

theorem add_ofNat_succ (first : BitVec 64) (i : Nat) :
    first + BitVec.ofNat 64 (i + 1) = first + 1 + BitVec.ofNat 64 i := by
  rw [BitVec.ofNat_add, BitVec.add_comm (BitVec.ofNat 64 i), ← BitVec.add_assoc]
  rfl

theorem add_ofNat_pred (first : BitVec 64) {n : Nat} (h : 1 ≤ n) :
    first + BitVec.ofNat 64 n = first + 1 + BitVec.ofNat 64 (n - 1) := by
  have hsucc := add_ofNat_succ first (n - 1)
  rwa [Nat.sub_add_cancel h] at hsucc

theorem add_ofNat_sub (first : BitVec 64) {i n : Nat} (h : i ≤ n) :
    first + BitVec.ofNat 64 (n - i) = first + BitVec.ofNat 64 n - BitVec.ofNat 64 i := by
  have hsum : BitVec.ofNat 64 (n - i + i) = BitVec.ofNat 64 (n - i) + BitVec.ofNat 64 i :=
    BitVec.ofNat_add _ _
  rw [Nat.sub_add_cancel h] at hsum
  rw [hsum, ← BitVec.add_assoc, BitVec.add_sub_cancel]

theorem tail_frameNumbers (first : BitVec 64) (n : Nat) :
    (frameNumbers first (n + 1)).tail = frameNumbers (first + 1) n := by
  rw [frameNumbers, List.range_succ_eq_map, List.map_cons, List.tail_cons, List.map_map]
  exact List.map_congr_left fun i _ => add_ofNat_succ first i

theorem take_frameNumbers (first : BitVec 64) {k n : Nat} (h : k ≤ n) :
    (frameNumbers first n).take k = frameNumbers first k := by
  rw [frameNumbers, ← List.map_take, List.take_range, Nat.min_eq_left h]
  rfl

namespace Recorder

theorem ofNat_injective {i j : Nat} (hi : i ≤ recordFramesMax) (hj : j ≤ recordFramesMax)
    (h : BitVec.ofNat 64 i = BitVec.ofNat 64 j) : i = j := by
  have hmod : i % sizeT = j % sizeT := congrArg BitVec.toNat h
  rwa [Nat.mod_eq_of_lt (lt_sizeT (by omega)), Nat.mod_eq_of_lt (lt_sizeT (by omega))] at hmod

def frameAt (r : Recorder) (i : Nat) : BitVec 64 := (r.states i).saved.display.frameNum

/-- The steps back that `PlayReverse` takes, past the one to the start of the current frame. -/
def stepsBack (frames : Nat) (r : Recorder) : Nat :=
  min (frames - if r.lastRecord then 1 else 0) (r.stateCurrent - 1)

theorem frameNum_stepReverse (r : Recorder) (m : Machine) :
    (r.stepReverse m).2.display.frameNum = r.frameAt (r.stepReverse m).1.stateIdx := by
  cases hlast : r.lastRecord <;> simp only [stepReverse, hlast] <;> rfl

theorem frameAt_storeState (r : Recorder) (m : Machine) :
    (r.storeState m).frameAt = Function.update r.frameAt r.nextIdx m.display.frameNum := by
  funext i
  change (Function.update r.states r.nextIdx ⟨m.snapshot, []⟩ i).saved.display.frameNum = _
  by_cases hi : i = r.nextIdx
  · rw [hi, Function.update_self, Function.update_self]
    rfl
  · rw [Function.update_of_ne hi, Function.update_of_ne hi, frameAt]

theorem frameAt_reset (r : Recorder) (m : Machine) :
    (r.reset m).frameAt = Function.update r.frameAt (r.reset m).stateIdx m.display.frameNum :=
  frameAt_storeState _ m

theorem frameAt_relogged (r : Recorder) (log : List Store) :
    (r.relogged log).frameAt = r.frameAt := by
  funext i
  change (Function.update r.states r.stateIdx { r.state with log := log } i).saved.display.frameNum
    = _
  by_cases hi : i = r.stateIdx
  · rw [hi, Function.update_self, frameAt, state]
  · rw [Function.update_of_ne hi, frameAt]

theorem exists_relogged (r : Recorder) (m : Machine)
    (h : r.lastRecord = true → r.stateCurrent = r.stateRecorded) :
    ∃ log, r.resumed.storeMemoryDiff m = r.relogged log := by
  cases hlast : r.lastRecord with
  | true =>
      refine ⟨r.state.log ++ m.mem.debug.entries, ?_⟩
      rw [resumed, if_pos hlast, r.relogged_of_live _ hlast (h hlast), storeMemoryDiff]
  | false =>
      refine ⟨m.mem.debug.entries, ?_⟩
      rw [resumed, if_neg (by rw [hlast]; exact Bool.false_ne_true),
        storeMemoryDiff_cleanMemUpdates]

/-- The ring holds the states of consecutive frames, from `first` in slot `base` on; the machine
is in the current one, and the newest is that of `m_frameNum`. -/
structure Numbered (r : Recorder) (m : Machine) (base : Nat) (first : BitVec 64) : Prop where
  idx : r.stateIdx = Ring.slot r.recordFrames base (r.stateCurrent - 1)
  pos : 1 ≤ r.stateCurrent
  current_le : r.stateCurrent ≤ r.stateRecorded
  window : Ring.Window r.frameAt r.recordFrames base (frameNumbers first r.stateRecorded)
  machine : m.display.frameNum = first + BitVec.ofNat 64 (r.stateCurrent - 1)
  live : r.lastRecord = true → r.stateCurrent = r.stateRecorded
  counter : r.frameNum = first + BitVec.ofNat 64 (r.stateRecorded - 1)

namespace Numbered

variable {r : Recorder} {m : Machine} {base : Nat} {first : BitVec 64}

theorem recorded_le (h : r.Numbered m base first) : r.stateRecorded ≤ r.recordFrames := by
  have hle := h.window.length_le
  rwa [length_frameNumbers] at hle

theorem recordFrames_pos (h : r.Numbered m base first) : 0 < r.recordFrames := by
  have hpos := h.pos
  have hle := h.current_le
  have hmax := h.recorded_le
  omega

theorem idx_lt (h : r.Numbered m base first) : r.stateIdx < r.recordFrames := by
  rw [h.idx]
  exact Ring.slot_lt h.recordFrames_pos _ _

theorem frameAt_slot (h : r.Numbered m base first) {i : Nat} (hi : i < r.stateRecorded) :
    r.frameAt (Ring.slot r.recordFrames base i) = first + BitVec.ofNat 64 i := by
  rw [h.window.get i (by rwa [length_frameNumbers]), getElem_frameNumbers]

/-! ### Playback -/

theorem park (h : r.Numbered m base first) : r.park.Numbered m base first :=
  ⟨h.idx, h.pos, h.current_le, h.window, h.machine, fun hlive => absurd hlive Bool.false_ne_true,
    h.counter⟩

theorem move (h : r.Numbered m base first) {i c : Nat} (hpos : 1 ≤ c) (hle : c ≤ r.stateRecorded)
    (hidx : i = Ring.slot r.recordFrames base (c - 1)) (hlast : r.lastRecord = false)
    {m' : Machine} (hm : m'.display.frameNum = r.frameAt i) :
    { r with stateIdx := i, stateCurrent := c }.Numbered m' base first := by
  refine ⟨hidx, hpos, hle, h.window, ?_, fun hlive => ?_, h.counter⟩
  · rw [hm, hidx]
    exact h.frameAt_slot (Nat.lt_of_lt_of_le (Nat.sub_one_lt_of_le hpos (Nat.le_refl c)) hle)
  · exact absurd (hlast.symm.trans hlive) Bool.false_ne_true

theorem current_lt_sizeT (h : r.Numbered m base first) : r.stateCurrent + 1 < sizeT := by
  have hle := h.current_le
  have hmax := h.recorded_le
  have hframes := r.recordFrames_le
  exact lt_sizeT (by omega)

theorem stepForward (h : r.Numbered m base first) (hgo : r.stateCurrent ≠ r.stateRecorded) :
    (r.stepForward m).1.Numbered (r.stepForward m).2 base first ∧
      (r.stepForward m).1.stateCurrent = r.stateCurrent + 1 := by
  have hparked : r.lastRecord = false := by
    cases hlast : r.lastRecord with
    | true => exact absurd (h.live hlast) hgo
    | false => rfl
  have hlt : r.stateCurrent < r.stateRecorded := Nat.lt_of_le_of_ne h.current_le hgo
  have hpos := h.pos
  have hcurrent : (r.stateCurrent + 1) % sizeT = r.stateCurrent + 1 :=
    Nat.mod_eq_of_lt h.current_lt_sizeT
  have hnext : r.nextIdx = Ring.slot r.recordFrames base (r.stateCurrent + 1 - 1) := by
    rw [r.nextIdx_eq h.idx_lt, h.idx, Ring.slot_succ]
    congr 1
    omega
  rw [Recorder.stepForward, hcurrent]
  exact ⟨h.move (Nat.le_add_left 1 _) hlt hnext hparked rfl, rfl⟩

theorem playForwardLoop (h : r.Numbered m base first) (n : Nat) :
    (r.playForwardLoop n m).1.Numbered (r.playForwardLoop n m).2 base first ∧
      (r.playForwardLoop n m).1.stateCurrent = min (r.stateCurrent + n) r.stateRecorded := by
  induction n generalizing r m with
  | zero => exact ⟨h, (Nat.min_eq_left h.current_le).symm⟩
  | succ n ih =>
      rw [Recorder.playForwardLoop]
      split
      · rename_i hedge
        exact ⟨h.park, by change r.stateCurrent = _; omega⟩
      · rename_i hgo
        obtain ⟨hstep, hcurrent⟩ := h.stepForward hgo
        have hrecorded : (r.stepForward m).1.stateRecorded = r.stateRecorded := rfl
        obtain ⟨hloop, hplace⟩ := ih hstep
        rw [hcurrent, hrecorded] at hplace
        refine ⟨hloop, hplace.trans ?_⟩
        congr 1
        omega

theorem stepReverse_live (h : r.Numbered m base first) (hlast : r.lastRecord = true) :
    (r.stepReverse m).1.Numbered (r.stepReverse m).2 base first ∧
      (r.stepReverse m).1 = r.park := by
  have hpark : (r.stepReverse m).1 = r.park := by rw [stepReverse_fst, if_pos hlast]
  have hframe := r.frameNum_stepReverse m
  rw [hpark] at hframe ⊢
  exact ⟨h.park.move h.pos h.current_le h.idx rfl hframe, rfl⟩

theorem stepReverse_parked (h : r.Numbered m base first) (hlast : r.lastRecord = false)
    (hone : 1 < r.stateCurrent) (hslot : r.recordFrames ∣ sizeT ∨ 0 < r.stateIdx) :
    (r.stepReverse m).1.Numbered (r.stepReverse m).2 base first ∧
      (r.stepReverse m).1 =
        { r with stateIdx := r.prevIdx, stateCurrent := r.stateCurrent - 1 } := by
  have hcurrent : (r.stateCurrent + sizeT - 1) % sizeT = r.stateCurrent - 1 := by
    have hsum : r.stateCurrent + sizeT - 1 = r.stateCurrent - 1 + sizeT := by omega
    have hlt := h.current_lt_sizeT
    rw [hsum, Nat.add_mod_right, Nat.mod_eq_of_lt (by omega)]
  have hpred : r.prevIdx = Ring.slot r.recordFrames base (r.stateCurrent - 1 - 1) := by
    have hsucc : r.stateCurrent - 1 = r.stateCurrent - 1 - 1 + 1 := by omega
    have hidx := h.idx
    rw [hsucc] at hidx
    rw [r.prevIdx_eq h.idx_lt hslot, hidx, Ring.slot_pred h.recordFrames_pos]
  have hstep : (r.stepReverse m).1 =
      { r with stateIdx := r.prevIdx, stateCurrent := r.stateCurrent - 1 } := by
    rw [stepReverse_fst, if_neg (by rw [hlast]; exact Bool.false_ne_true), hcurrent]
  have hframe := r.frameNum_stepReverse m
  have hle := h.current_le
  rw [hstep] at hframe ⊢
  exact ⟨h.move (by omega) (by omega) hpred hlast hframe, rfl⟩

theorem playReverseLoop (h : r.Numbered m base first) (n : Nat)
    (hslot : r.recordFrames ∣ sizeT ∨ stepsBack n r ≤ r.stateIdx) :
    (r.playReverseLoop n m).1.Numbered (r.playReverseLoop n m).2 base first ∧
      (r.playReverseLoop n m).1.stateCurrent = r.stateCurrent - stepsBack n r := by
  induction n generalizing r m with
  | zero =>
      refine ⟨h, ?_⟩
      simp [Recorder.playReverseLoop, stepsBack]
  | succ n ih =>
      rw [Recorder.playReverseLoop]
      split
      · rename_i hstop
        refine ⟨h, ?_⟩
        simp [stepsBack, hstop]
      · rename_i hgo
        cases hlast : r.lastRecord with
        | true =>
            obtain ⟨hstep, hpark⟩ := h.stepReverse_live hlast
            have hsteps : stepsBack (n + 1) r = stepsBack n r.park := by
              simp only [stepsBack, hlast, if_true]
              rfl
            rw [hsteps] at hslot ⊢
            obtain ⟨hloop, hplace⟩ := ih hstep (by rw [hpark]; exact hslot)
            exact ⟨hloop, hplace.trans (by rw [hpark]; rfl)⟩
        | false =>
            have hone : 1 < r.stateCurrent := by
              have hpos := h.pos
              by_contra hle
              exact hgo ⟨by omega, hlast⟩
            have hsteps : stepsBack (n + 1) r = min n (r.stateCurrent - 1 - 1) + 1 := by
              simp only [stepsBack, hlast, Bool.false_eq_true, if_false]
              omega
            rw [hsteps] at hslot ⊢
            obtain ⟨hstep, hback⟩ := h.stepReverse_parked hlast hone
              (hslot.imp_right fun hle => by omega)
            have hrest : r.recordFrames ∣ sizeT ∨
                stepsBack n (r.stepReverse m).1 ≤ (r.stepReverse m).1.stateIdx := by
              rw [hback]
              refine hslot.imp_right fun hle => ?_
              have hlt := h.idx_lt
              have hprev := r.prevIdx_eq hlt (.inr (by omega))
              have hsum : r.stateIdx + r.recordFrames - 1 = r.stateIdx - 1 + r.recordFrames := by
                omega
              rw [hsum, Nat.add_mod_right, Nat.mod_eq_of_lt (by omega)] at hprev
              simp only [stepsBack, hlast, Bool.false_eq_true, if_false, Nat.sub_zero]
              omega
            obtain ⟨hloop, hplace⟩ := ih hstep (by rw [hback] at hrest ⊢; exact hrest)
            refine ⟨hloop, hplace.trans ?_⟩
            rw [hback]
            simp only [stepsBack, hlast, Bool.false_eq_true, if_false, Nat.sub_zero]
            omega

/-! ### Recording -/

theorem newest {r : Recorder} {m : Machine} {base c : Nat} {first : BitVec 64}
    (hpos : 1 ≤ c) (hcurrent : r.stateCurrent = c) (hrecorded : r.stateRecorded = c)
    (hidx : r.stateIdx = Ring.slot r.recordFrames base (c - 1))
    (hwindow : Ring.Window r.frameAt r.recordFrames base (frameNumbers first c))
    (hframe : m.display.frameNum = first + BitVec.ofNat 64 (c - 1)) :
    { r with frameNum := m.display.frameNum }.Numbered m base first := by
  subst hcurrent
  refine ⟨hidx, hpos, Nat.le_of_eq hrecorded.symm, ?_, hframe, fun _ => hrecorded.symm, ?_⟩
  · rw [← hrecorded] at hwindow
    exact hwindow
  · rw [hrecorded]
    exact hframe

theorem storeState {r : Recorder} {m : Machine} {base : Nat} {first : BitVec 64}
    (hidx : r.stateIdx = Ring.slot r.recordFrames base (r.stateCurrent - 1))
    (hpos : 1 ≤ r.stateCurrent)
    (hwindow : Ring.Window r.frameAt r.recordFrames base (frameNumbers first r.stateCurrent))
    (hframe : m.display.frameNum = first + BitVec.ofNat 64 r.stateCurrent) :
    ∃ base' first',
      { r.storeState m with frameNum := m.display.frameNum }.Numbered m base' first' := by
  have hle : r.stateCurrent ≤ r.recordFrames := by
    have hle := hwindow.length_le
    rwa [length_frameNumbers] at hle
  have hmax := r.recordFrames_le
  have hcurrent : (r.stateCurrent + 1) % sizeT = r.stateCurrent + 1 :=
    Nat.mod_eq_of_lt (lt_sizeT (by omega))
  have hlt : r.stateIdx < r.recordFrames := by
    rw [hidx]
    exact Ring.slot_lt (by omega) _ _
  have hsucc : r.stateCurrent - 1 + 1 = r.stateCurrent := Nat.sub_add_cancel hpos
  have hnext : r.nextIdx = Ring.slot r.recordFrames base r.stateCurrent := by
    rw [r.nextIdx_eq hlt, hidx, Ring.slot_succ, hsucc]
  have hframes : (r.storeState m).frameAt = Function.update r.frameAt
      (Ring.slot r.recordFrames base r.stateCurrent) m.display.frameNum := by
    rw [← hnext]
    exact r.frameAt_storeState m
  have hstored : (r.storeState m).stateCurrent = min (r.stateCurrent + 1) r.recordFrames := by
    rw [Recorder.storeState, hcurrent]
  by_cases hroom : r.stateCurrent < r.recordFrames
  · have hpush := hwindow.push (by rwa [length_frameNumbers]) m.display.frameNum
    rw [length_frameNumbers, ← hframes, hframe, ← frameNumbers_succ] at hpush
    have hgrown : (r.storeState m).stateCurrent = r.stateCurrent + 1 :=
      hstored.trans (Nat.min_eq_left hroom)
    exact ⟨base, first, newest (Nat.le_add_left 1 _) hgrown hgrown hnext hpush hframe⟩
  · have hfull : r.stateCurrent = r.recordFrames := by
      omega
    have hkept : (r.storeState m).stateCurrent = r.stateCurrent := by
      omega
    have hpush := hwindow.pushFull (by rwa [length_frameNumbers]) (by omega) m.display.frameNum
    have hlist : (frameNumbers first r.stateCurrent).tail ++ [m.display.frameNum] =
        frameNumbers (first + 1) r.stateCurrent := by
      have htail := tail_frameNumbers first (r.stateCurrent - 1)
      rw [hsucc] at htail
      rw [htail, hframe, add_ofNat_pred first hpos, ← frameNumbers_succ, hsucc]
    rw [length_frameNumbers, ← hframes, hlist] at hpush
    rw [add_ofNat_pred first hpos] at hframe
    have hidx' : (r.storeState m).stateIdx = Ring.slot r.recordFrames
        (Ring.slot r.recordFrames base 1) (r.stateCurrent - 1) := by
      rw [Ring.slot_slot, Nat.add_comm, hsucc]
      exact hnext
    exact ⟨Ring.slot r.recordFrames base 1, first + 1,
      newest hpos hkept hkept hidx' hpush hframe⟩

theorem reset (r : Recorder) (m : Machine) (hframes : 0 < r.recordFrames) :
    (r.reset m).Numbered m 1 m.display.frameNum := by
  have hone : (0 + 1) % sizeT = 1 := Nat.mod_eq_of_lt (lt_sizeT (by omega))
  have hidx : (r.reset m).stateIdx = Ring.slot r.recordFrames 1 (1 - 1) := by
    change (0 + 1) % sizeT % r.recordFrames = _
    rw [hone]
    rfl
  have hcurrent : (r.reset m).stateCurrent = 1 := by
    change min ((0 + 1) % sizeT) r.recordFrames = 1
    rw [hone]
    exact Nat.min_eq_left hframes
  have hempty : Ring.Window r.frameAt r.recordFrames 1 [] :=
    ⟨Nat.zero_le _, fun i hi => absurd hi (Nat.not_lt_zero i)⟩
  have hpush := hempty.push hframes m.display.frameNum
  have hslot : Ring.slot r.recordFrames 1 ([] : List (BitVec 64)).length = (r.reset m).stateIdx :=
    hidx.symm
  have hzero : frameNumbers m.display.frameNum 1 = [m.display.frameNum] := by
    simp [frameNumbers]
  rw [hslot, ← r.frameAt_reset m, List.nil_append, ← hzero] at hpush
  exact newest (Nat.le_refl 1) hcurrent hcurrent hidx hpush (by simp)

theorem update_same (h : r.Numbered m base first) {m' : Machine}
    (hnum : m'.display.frameNum = m.display.frameNum) (hnewest : r.stateCurrent = r.stateRecorded) :
    (r.update m').Numbered m' base first := by
  have hskip : ¬ r.frameNum ≠ m'.display.frameNum := by
    rw [hnum, h.machine, h.counter, hnewest]
    exact fun hne => hne rfl
  obtain ⟨log, hlog⟩ := r.exists_relogged m' h.live
  rw [update_eq, if_neg hskip, hlog]
  refine ⟨h.idx, h.pos, Nat.le_refl _, ?_, hnum.trans h.machine, fun _ => rfl, ?_⟩
  · rw [r.frameAt_relogged log]
    change Ring.Window _ _ _ (frameNumbers first r.stateCurrent)
    rw [hnewest]
    exact h.window
  · change r.frameNum = first + BitVec.ofNat 64 (r.stateCurrent - 1)
    rw [hnewest]
    exact h.counter

theorem update_next (h : r.Numbered m base first) {m' : Machine}
    (hnum : m'.display.frameNum = m.display.frameNum + 1)
    (hstore : r.frameNum ≠ m'.display.frameNum) :
    ∃ base' first', (r.update m').Numbered m' base' first' := by
  obtain ⟨log, hlog⟩ := r.exists_relogged m' h.live
  have hwindow := h.window.take r.stateCurrent
  rw [take_frameNumbers first h.current_le, ← r.frameAt_relogged log] at hwindow
  have hframe : m'.display.frameNum = first + BitVec.ofNat 64 r.stateCurrent := by
    rw [hnum, h.machine, add_ofNat_pred first h.pos, BitVec.add_assoc, BitVec.add_assoc,
      BitVec.add_comm 1]
  rw [update_eq, if_pos hstore, hlog]
  exact storeState (r := r.relogged log) h.idx h.pos hwindow hframe

end Numbered

/-! ### The counter -/

theorem frameNum_update (r : Recorder) (m : Machine) :
    (r.update m).frameNum = m.display.frameNum := by
  have hkept : (r.resumed.storeMemoryDiff m).frameNum = r.frameNum := by
    unfold resumed
    split <;> rfl
  rw [update_eq]
  split
  · rfl
  · rename_i hsame
    exact hkept.trans (Decidable.not_not.mp hsame)

theorem frameNum_playForwardLoop (n : Nat) (r : Recorder) (m : Machine) :
    (r.playForwardLoop n m).1.frameNum = r.frameNum := by
  induction n generalizing r m with
  | zero => rfl
  | succ n ih =>
      rw [playForwardLoop]
      split
      · rfl
      · exact ih _ _

theorem frameNum_playReverseLoop (n : Nat) (r : Recorder) (m : Machine) :
    (r.playReverseLoop n m).1.frameNum = r.frameNum := by
  induction n generalizing r m with
  | zero => rfl
  | succ n ih =>
      rw [playReverseLoop]
      split
      · rfl
      · have hstep : (r.stepReverse m).1.frameNum = r.frameNum := by
          rw [stepReverse_fst]
          split <;> rfl
        exact (ih _ _).trans hstep

/-- The frame number of the `i`-th retained state, the oldest one being the first. -/
def retainedFrame (r : Recorder) (i : Nat) : BitVec 64 :=
  r.frameAt (Ring.slot r.recordFrames (r.stateIdx + r.recordFrames - (r.stateCurrent - 1)) i)

theorem Numbered.retainedFrame {r : Recorder} {m : Machine} {base : Nat} {first : BitVec 64}
    (h : r.Numbered m base first) {i : Nat} (hi : i < r.stateRecorded) :
    r.retainedFrame i = first + BitVec.ofNat 64 i := by
  have hle := h.current_le
  have hmax := h.recorded_le
  rw [Recorder.retainedFrame, h.idx, Ring.slot_slot_sub (by omega), h.frameAt_slot hi]

end Recorder

/-! ## Sequences of calls -/

/-- A recorder, its machine, and the number of the frame that was executed last. -/
structure Tape where
  recorder : Recorder
  machine : Machine
  latest : BitVec 64

namespace Tape

inductive Act where
  /-- An instruction has taken the machine to `m`. -/
  | update (m : Machine)
  | playForward (frames : Int)
  | playReverse (frames : Int)

def act (s : Tape) : Act → Tape
  | .update m => ⟨s.recorder.update m, m, m.display.frameNum⟩
  | .playForward frames =>
      let (r, m) := s.recorder.playForward frames s.machine
      ⟨r, m, s.latest⟩
  | .playReverse frames =>
      let (r, m) := s.recorder.playReverse frames s.machine
      ⟨r, m, s.latest⟩

def Executes (s : Tape) : Act → Prop
  | .update m =>
      m.display.frameNum = s.machine.display.frameNum ∨
        m.display.frameNum = s.machine.display.frameNum + 1
  | .playForward _ => True
  | .playReverse _ => True

def AfterReset (s : Tape) : Prop :=
  ∃ r m, 0 < r.recordFrames ∧ s = ⟨Recorder.reset r m, m, m.display.frameNum⟩

/-- The states after `Reset` and any calls that are as `P` says. -/
def Reachable (P : Tape → Act → Prop) : Tape → Prop :=
  Runs.Reachable AfterReset fun s t => ∃ a, s.Executes a ∧ P s a ∧ t = s.act a

/-- One state for every frame: the newest is that of the last frame, and each of the others that
of the frame before the next one's. -/
structure OnePerFrame (s : Tape) : Prop where
  consecutive : ∀ i, i + 1 < s.recorder.stateRecorded →
    s.recorder.retainedFrame (i + 1) = s.recorder.retainedFrame i + 1
  distinct : ∀ i j, i < s.recorder.stateRecorded → j < s.recorder.stateRecorded →
    s.recorder.retainedFrame i = s.recorder.retainedFrame j → i = j
  covers : ∀ i, i < s.recorder.stateRecorded →
    s.recorder.retainedFrame (s.recorder.stateRecorded - 1 - i) = s.latest - BitVec.ofNat 64 i

/-- A play request takes the machine as many frames as states. -/
def MovesByStates (s : Tape) : Act → Prop
  | .update _ => True
  | .playForward frames =>
      (s.act (.playForward frames)).machine.display.frameNum =
        s.machine.display.frameNum + BitVec.ofNat 64
          (min frames.toNat (s.recorder.stateRecorded - s.recorder.stateCurrent))
  | .playReverse frames =>
      (s.act (.playReverse frames)).machine.display.frameNum =
        s.machine.display.frameNum - BitVec.ofNat 64 (s.recorder.stepsBack frames.toNat)

/--
An instruction stays in its frame only at the newest state, and does not begin the frame of the
newest state; `PlayReverse` comes to slot 0 at most, unless the size of the ring divides `2^64`.
-/
def Aligned (s : Tape) : Act → Prop
  | .update m =>
      if m.display.frameNum = s.machine.display.frameNum then
        s.recorder.stateCurrent = s.recorder.stateRecorded
      else s.recorder.stateCurrent + 1 ≠ s.recorder.stateRecorded
  | .playForward _ => True
  | .playReverse frames =>
      s.recorder.recordFrames ∣ sizeT ∨
        s.recorder.stepsBack frames.toNat ≤ s.recorder.stateIdx

def Numbered (s : Tape) : Prop :=
  s.latest = s.recorder.frameNum ∧ ∃ base first, s.recorder.Numbered s.machine base first

theorem numbered_afterReset {s : Tape} (h : s.AfterReset) : s.Numbered := by
  obtain ⟨r, m, hframes, rfl⟩ := h
  exact ⟨rfl, 1, m.display.frameNum, .reset r m hframes⟩

theorem numbered_update {s : Tape} (h : s.Numbered) (m : Machine) (hexec : s.Executes (.update m))
    (haligned : s.Aligned (.update m)) : (s.act (.update m)).Numbered := by
  obtain ⟨-, base, first, hring⟩ := h
  refine ⟨(s.recorder.frameNum_update m).symm, ?_⟩
  by_cases hsame : m.display.frameNum = s.machine.display.frameNum
  · rw [Aligned, if_pos hsame] at haligned
    exact ⟨base, first, hring.update_same hsame haligned⟩
  · rw [Aligned, if_neg hsame] at haligned
    have hnext := hexec.resolve_left hsame
    refine hring.update_next hnext fun heq => haligned ?_
    have hpos := hring.pos
    have hle := hring.current_le
    have hmax := hring.recorded_le
    have hframes := s.recorder.recordFrames_le
    rw [hnext, hring.machine, hring.counter, BitVec.add_assoc, BitVec.add_right_inj] at heq
    have hplace : s.recorder.stateRecorded - 1 = s.recorder.stateCurrent - 1 + 1 :=
      Recorder.ofNat_injective (by omega) (by omega) (heq.trans (BitVec.ofNat_add _ _).symm)
    omega

theorem numbered_act {s : Tape} (h : s.Numbered) {a : Act} (hexec : s.Executes a)
    (haligned : s.Aligned a) : (s.act a).Numbered := by
  cases a with
  | update m => exact numbered_update h m hexec haligned
  | playForward frames =>
      obtain ⟨hlatest, base, first, hring⟩ := h
      exact ⟨hlatest.trans (Recorder.frameNum_playForwardLoop _ _ _).symm, base, first,
        (hring.playForwardLoop _).1⟩
  | playReverse frames =>
      obtain ⟨hlatest, base, first, hring⟩ := h
      exact ⟨hlatest.trans (Recorder.frameNum_playReverseLoop _ _ _).symm, base, first,
        (hring.playReverseLoop _ haligned).1⟩

theorem Reachable.numbered {s : Tape} (h : Reachable Aligned s) : s.Numbered := by
  refine @Runs.Reachable.invariant _ AfterReset _ Numbered (fun _ => numbered_afterReset) ?_ s h
  rintro s t hs ⟨a, hexec, haligned, rfl⟩
  exact numbered_act hs hexec haligned

/-! ## What the invariant says -/

theorem Numbered.ringOnePerFrame {s : Tape} (h : s.Numbered) : s.OnePerFrame := by
  obtain ⟨hlatest, base, first, hring⟩ := h
  have hmax := hring.recorded_le
  have hframes := s.recorder.recordFrames_le
  constructor
  · intro i hi
    rw [hring.retainedFrame hi, hring.retainedFrame (by omega), BitVec.ofNat_add,
      ← BitVec.add_assoc]
    rfl
  · intro i j hi hj heq
    rw [hring.retainedFrame hi, hring.retainedFrame hj, BitVec.add_right_inj] at heq
    exact Recorder.ofNat_injective (by omega) (by omega) heq
  · intro i hi
    rw [hring.retainedFrame (by omega), hlatest, hring.counter]
    exact add_ofNat_sub first (by omega)

theorem Numbered.movesByStates {s : Tape} (h : s.Numbered) {a : Act} (haligned : s.Aligned a) :
    s.MovesByStates a := by
  obtain ⟨-, base, first, hring⟩ := h
  have hpos := hring.pos
  have hle := hring.current_le
  cases a with
  | update m => trivial
  | playForward frames =>
      obtain ⟨hloop, hplace⟩ := hring.playForwardLoop frames.toNat
      have hsum : min (s.recorder.stateCurrent + frames.toNat) s.recorder.stateRecorded - 1 =
          s.recorder.stateCurrent - 1 +
            min frames.toNat (s.recorder.stateRecorded - s.recorder.stateCurrent) := by
        omega
      change (s.recorder.playForwardLoop frames.toNat s.machine).2.display.frameNum = _
      rw [hloop.machine, hplace, hring.machine, hsum, BitVec.ofNat_add, ← BitVec.add_assoc]
  | playReverse frames =>
      obtain ⟨hloop, hplace⟩ := hring.playReverseLoop frames.toNat haligned
      have hsteps : s.recorder.stepsBack frames.toNat ≤ s.recorder.stateCurrent - 1 :=
        Nat.min_le_right _ _
      change (s.recorder.playReverseLoop frames.toNat s.machine).2.display.frameNum = _
      rw [hloop.machine, hplace, hring.machine, Nat.sub_right_comm, add_ofNat_sub first hsteps]

/--
In every sequence of calls that are all aligned, the ring keeps one state for every frame up to
the one executed last, and play requests move by as many frames as states.
-/
theorem onePerFrame {s : Tape} (h : Reachable Aligned s) :
    s.OnePerFrame ∧ ∀ a, s.Aligned a → s.MovesByStates a :=
  ⟨h.numbered.ringOnePerFrame, fun _ => h.numbered.movesByStates⟩

def rewound : Tape :=
  let blank := Recorder.machineAt 0 fun _ => 0
  let start : Tape := ⟨(Recorder.new 4).reset blank, blank, 0⟩
  (start.act (.update (Recorder.machineAt 1 fun _ => 0))).act (.playReverse 2)

theorem rewound_reachable : Reachable Aligned rewound := by
  have hstart : Reachable Aligned ⟨(Recorder.new 4).reset (Recorder.machineAt 0 fun _ => 0),
      Recorder.machineAt 0 fun _ => 0, 0⟩ := .start ⟨_, _, by decide, rfl⟩
  have hframe := hstart.step
    ⟨.update (Recorder.machineAt 1 fun _ => 0), .inr (by decide),
      by rw [Aligned, if_neg (by decide)]; decide, rfl⟩
  exact hframe.step ⟨.playReverse 2, trivial, .inl (by decide), rfl⟩

theorem onePerFrame_rewound :
    rewound.OnePerFrame ∧ ∀ a, rewound.Aligned a → rewound.MovesByStates a :=
  onePerFrame rewound_reachable

/-- An instruction of frame 0 behind it: the counter of the recorder still says 1. -/
theorem resumed_keeps_frame_twice :
    ¬ ∀ s, Reachable (fun _ _ => True) s → s.OnePerFrame ∧ ∀ a, s.MovesByStates a := by
  intro h
  have hrewound : Reachable (fun _ _ => True) rewound :=
    Runs.Reachable.mono (fun _ _ ⟨a, hexec, _, ht⟩ => ⟨a, hexec, trivial, ht⟩) rewound_reachable
  have hresumed := hrewound.step
    ⟨.update (Recorder.machineAt 0 fun _ => 0), .inl (by decide), trivial, rfl⟩
  have hsame := (h _ hresumed).1.distinct 0 1 (by decide) (by decide) (by decide)
  exact absurd hsame (by decide)

end Tape

end V6Emul
