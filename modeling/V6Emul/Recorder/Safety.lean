import V6Emul.Recorder.Playback

/-!
# What playback sets

The recorder's requests in any order, from a freshly constructed recorder on:
the counters stay within the ring, and a play request sets only states that
`StoreState` has saved.  The first rewind has to wait for a stored state.
-/

namespace V6Emul

namespace Recorder

/-! ## Slots that hold a stored state -/

def Holds (r : Recorder) (saved : List Snapshot) (i : Nat) : Prop := (r.states i).saved ∈ saved

inductive Filled (r : Recorder) (saved : List Snapshot) : Prop where
  | fresh : r.stateCurrent = 0 → r.stateRecorded = 0 → r.stateIdx = 0 → Filled r saved
  | filling : 1 ≤ r.stateCurrent → r.stateIdx = r.stateCurrent →
      r.stateRecorded < r.recordFrames →
      (∀ i, 1 ≤ i → i ≤ r.stateRecorded → r.Holds saved i) → Filled r saved
  | full : 1 ≤ r.stateCurrent → (∀ i < r.recordFrames, r.Holds saved i) → Filled r saved

structure InBounds (r : Recorder) : Prop where
  idx_lt : r.stateIdx < r.recordFrames
  current_le : r.stateCurrent ≤ r.stateRecorded
  recorded_le : r.stateRecorded ≤ r.recordFrames

structure Sound (r : Recorder) (saved : List Snapshot) : Prop extends InBounds r where
  filled : r.Filled saved

namespace Sound

variable {r : Recorder} {saved : List Snapshot}

theorem frames_pos (h : r.Sound saved) : 0 < r.recordFrames :=
  Nat.lt_of_le_of_lt (Nat.zero_le _) h.idx_lt

theorem current_lt_sizeT (h : r.Sound saved) : r.stateCurrent + 1 < sizeT := by
  have hle := r.recordFrames_le
  have hcurrent := h.current_le
  have hrecorded := h.recorded_le
  exact lt_sizeT (by omega)

theorem holds_idx (h : r.Sound saved) (hpos : 1 ≤ r.stateCurrent) : r.Holds saved r.stateIdx := by
  cases h.filled with
  | fresh hzero => omega
  | filling _ hidx _ hholds => exact hholds _ (by omega) (hidx ▸ h.current_le)
  | full _ hholds => exact hholds _ h.idx_lt

theorem congr (h : r.Sound saved) {r' : Recorder} (hframes : r'.recordFrames = r.recordFrames)
    (hidx : r'.stateIdx = r.stateIdx) (hcurrent : r'.stateCurrent = r.stateCurrent)
    (hrecorded : r'.stateRecorded = r.stateRecorded)
    (hstates : ∀ i, (r'.states i).saved = (r.states i).saved) : r'.Sound saved := by
  have hholds : ∀ i, r.Holds saved i → r'.Holds saved i := by
    intro i hi
    rw [Holds, hstates]
    exact hi
  refine ⟨⟨?_, ?_, ?_⟩, ?_⟩
  · rw [hidx, hframes]
    exact h.idx_lt
  · rw [hcurrent, hrecorded]
    exact h.current_le
  · rw [hrecorded, hframes]
    exact h.recorded_le
  · cases h.filled with
    | fresh hc hr hi => exact .fresh (hcurrent.trans hc) (hrecorded.trans hr) (hidx.trans hi)
    | filling hc hi hr hs =>
        refine .filling (by omega) (by omega) (by omega) ?_
        intro i hi1 hir
        exact hholds i (hs i hi1 (by omega))
    | full hc hs =>
        refine .full (by omega) ?_
        intro i hi
        exact hholds i (hs i (by omega))

theorem setLog (h : r.Sound saved) (log : List Store) :
    (r.setState { r.state with log := log }).Sound saved := by
  refine h.congr rfl rfl rfl rfl ?_
  intro i
  rw [setState]
  by_cases hi : i = r.stateIdx
  · subst hi
    simp [state]
  · simp [Function.update_of_ne hi]

theorem resumed (h : r.Sound saved) : r.resumed.Sound saved := by
  unfold Recorder.resumed
  split
  · exact h
  · have hdropped : ({ r with lastRecord := true, stateRecorded := r.stateCurrent } :
        Recorder).Sound saved := by
      have hle := h.current_le
      have hmax := h.recorded_le
      refine ⟨⟨h.idx_lt, Nat.le_refl _, hle.trans hmax⟩, ?_⟩
      cases h.filled with
      | fresh hc _ hi => exact .fresh hc hc hi
      | filling hc hi hr hs =>
          exact .filling hc hi (Nat.lt_of_le_of_lt hle hr) fun i hi1 hic => hs i hi1 (hic.trans hle)
      | full hc hs => exact .full hc hs
    exact hdropped.setLog []

theorem storeState (h : r.Sound saved) (m : Machine) :
    (r.storeState m).Sound (m.snapshot :: saved) := by
  have hpos := h.frames_pos
  have hcurrent : (r.storeState m).stateCurrent = min (r.stateCurrent + 1) r.recordFrames := by
    change min ((r.stateCurrent + 1) % sizeT) r.recordFrames = _
    rw [Nat.mod_eq_of_lt h.current_lt_sizeT]
  have hidx : (r.storeState m).stateIdx = (r.stateIdx + 1) % r.recordFrames :=
    r.nextIdx_eq h.idx_lt
  have hnew : (r.storeState m).Holds (m.snapshot :: saved) (r.storeState m).stateIdx := by
    simp [Holds, Recorder.storeState]
  have hold : ∀ i, r.Holds saved i → (r.storeState m).Holds (m.snapshot :: saved) i := by
    intro i hi
    by_cases heq : i = r.nextIdx
    · exact heq ▸ hnew
    · simp only [Holds, Recorder.storeState, Function.update_of_ne heq]
      exact List.mem_cons_of_mem _ hi
  have hle := h.current_le
  have hmax := h.recorded_le
  refine ⟨⟨?_, Nat.le_refl _, ?_⟩, ?_⟩
  · rw [hidx]
    exact Nat.mod_lt _ hpos
  · change (r.storeState m).stateCurrent ≤ r.recordFrames
    rw [hcurrent]
    exact Nat.min_le_right _ _
  · have hrecorded : (r.storeState m).stateRecorded = min (r.stateCurrent + 1) r.recordFrames :=
      hcurrent
    have hshape : (∀ i < r.recordFrames, r.Holds saved i) ∨ (r.stateIdx = r.stateCurrent ∧
        r.stateCurrent < r.recordFrames ∧
        ∀ i, 1 ≤ i → i ≤ r.stateCurrent → r.Holds saved i) := by
      cases h.filled with
      | fresh hc _ hi => exact .inr ⟨by omega, by omega, fun i hi1 hi0 => by omega⟩
      | filling _ hi hr hs =>
          exact .inr ⟨hi, by omega, fun i hi1 hic => hs i hi1 (hic.trans hle)⟩
      | full _ hs => exact .inl hs
    rcases hshape with hfull | ⟨hsame, hroom, hholds⟩
    · exact .full (by omega) fun i hi => hold i (hfull i hi)
    · by_cases hlast : r.stateCurrent + 1 = r.recordFrames
      · have hzero : (r.storeState m).stateIdx = 0 := by
          rw [hidx, hsame, hlast, Nat.mod_self]
        refine .full (by omega) ?_
        intro i hi
        have hilt : i < r.recordFrames := hi
        rcases Nat.eq_zero_or_pos i with rfl | hi1
        · exact hzero ▸ hnew
        · exact hold i (hholds i hi1 (by omega))
      · have hnext : (r.storeState m).stateIdx = r.stateCurrent + 1 := by
          rw [hidx, hsame, Nat.mod_eq_of_lt (by omega)]
        refine .filling (by omega) (by omega) ?_ ?_
        · change (r.storeState m).stateRecorded < r.recordFrames
          omega
        · intro i hi1 hir
          by_cases hnewest : i = r.stateCurrent + 1
          · rw [hnewest, ← hnext]
            exact hnew
          · exact hold i (hholds i hi1 (by omega))

theorem reset (h : r.Sound saved) (m : Machine) : (r.reset m).Sound (m.snapshot :: saved) := by
  have hcleared : ({ r with
      stateIdx := 0
      stateRecorded := 0
      stateCurrent := 0
      lastRecord := true
      frameNum := m.display.frameNum } : Recorder).Sound saved :=
    ⟨⟨h.frames_pos, Nat.le_refl _, Nat.zero_le _⟩, .fresh rfl rfl rfl⟩
  exact hcleared.storeState m

theorem update (h : r.Sound saved) (m : Machine) :
    (r.update m).Sound (((r.dueFrame m).map UndoLog.Frame.saved).toList ++ saved) := by
  have hdiff := h.resumed.setLog (r.resumed.state.log ++ m.mem.debug.entries)
  rw [update_eq, dueFrame]
  split
  · exact (hdiff.storeState m).congr rfl rfl rfl rfl fun _ => rfl
  · exact hdiff

/-! ## Playing -/

theorem move (h : r.Sound saved) (hpos : 1 ≤ r.stateCurrent) {i c : Nat}
    (hi : i < r.recordFrames) (hc : 1 ≤ c) (hle : c ≤ r.stateRecorded)
    (hsame : r.stateIdx = r.stateCurrent → r.stateRecorded < r.recordFrames → i = c) :
    ({ r with stateIdx := i, stateCurrent := c } : Recorder).Sound saved := by
  refine ⟨⟨hi, hle, h.recorded_le⟩, ?_⟩
  cases h.filled with
  | fresh hzero => omega
  | filling _ hidx hroom hholds => exact .filling hc (hsame hidx hroom) hroom hholds
  | full _ hholds => exact .full hc hholds

theorem stepForward (h : r.Sound saved) (m : Machine) (hgo : r.stateCurrent ≠ r.stateRecorded) :
    (r.stepForward m).1.Sound saved ∧ (r.stepForward m).2.snapshot ∈ saved := by
  have hle := h.current_le
  have hmax := h.recorded_le
  have hpos : 1 ≤ r.stateCurrent := by
    cases h.filled with
    | fresh hc hr _ => exact absurd (hc.trans hr.symm) hgo
    | filling hc _ _ _ => exact hc
    | full hc _ => exact hc
  have hcurrent : (r.stateCurrent + 1) % sizeT = r.stateCurrent + 1 :=
    Nat.mod_eq_of_lt h.current_lt_sizeT
  have hstep : (r.stepForward m).1 =
      { r with stateIdx := r.nextIdx, stateCurrent := r.stateCurrent + 1 } := by
    rw [Recorder.stepForward, hcurrent]
  have hsound : (r.stepForward m).1.Sound saved := by
    rw [hstep]
    refine h.move hpos (r.nextIdx_lt h.frames_pos) (by omega) (by omega) ?_
    intro hsame hroom
    rw [r.nextIdx_eq h.idx_lt, hsame, Nat.mod_eq_of_lt (by omega)]
  refine ⟨hsound, hsound.holds_idx ?_⟩
  rw [hstep]
  exact Nat.succ_le_succ (Nat.zero_le _)

theorem stepReverse (h : r.Sound saved) (m : Machine) (hpos : 1 ≤ r.stateCurrent)
    (hgo : ¬(r.stateCurrent = 1 ∧ r.lastRecord = false)) :
    (r.stepReverse m).1.Sound saved ∧ 1 ≤ (r.stepReverse m).1.stateCurrent ∧
      (r.stepReverse m).2.snapshot ∈ saved := by
  have hle := h.current_le
  have hmax := h.recorded_le
  have hsnapshot : (r.stepReverse m).2.snapshot = (r.stepReverse m).1.state.saved := rfl
  suffices hsound : (r.stepReverse m).1.Sound saved ∧ 1 ≤ (r.stepReverse m).1.stateCurrent by
    refine ⟨hsound.1, hsound.2, ?_⟩
    rw [hsnapshot]
    exact hsound.1.holds_idx hsound.2
  cases hlast : r.lastRecord with
  | true =>
      have hpark : (r.stepReverse m).1 = r.park := by
        rw [Recorder.stepReverse, if_pos hlast]
        rfl
      rw [hpark]
      exact ⟨h.congr rfl rfl rfl rfl fun _ => rfl, hpos⟩
  | false =>
      have hcount : r.stateCurrent ≠ 1 := fun hone => hgo ⟨hone, hlast⟩
      have hsize := h.current_lt_sizeT
      have hcurrent : (r.stateCurrent + sizeT - 1) % sizeT = r.stateCurrent - 1 := by
        have hsum : r.stateCurrent + sizeT - 1 = r.stateCurrent - 1 + sizeT := by
          omega
        rw [hsum, Nat.add_mod_right, Nat.mod_eq_of_lt (by omega)]
      have hstep : (r.stepReverse m).1 =
          { r with stateIdx := r.prevIdx, stateCurrent := r.stateCurrent - 1 } := by
        rw [Recorder.stepReverse, if_neg (by rw [hlast]; exact Bool.false_ne_true), hcurrent]
      rw [hstep]
      refine ⟨h.move hpos (r.prevIdx_lt h.frames_pos) (by omega) (by omega) ?_, ?_⟩
      · intro hsame hroom
        have hback : r.stateIdx + r.recordFrames - 1 = r.stateCurrent - 1 + r.recordFrames := by
          omega
        rw [r.prevIdx_eq h.idx_lt (.inr (by omega)), hback, Nat.add_mod_right,
          Nat.mod_eq_of_lt (by omega)]
      · exact Nat.le_sub_one_of_lt (Nat.lt_of_le_of_ne hpos (Ne.symm hcount))

theorem playForwardLoop (h : r.Sound saved) (n : Nat) (m : Machine) :
    (r.playForwardLoop n m).1.Sound saved ∧
      ((r.playForwardLoop n m).2.snapshot = m.snapshot ∨
        (r.playForwardLoop n m).2.snapshot ∈ saved) := by
  induction n generalizing r m with
  | zero => exact ⟨h, .inl rfl⟩
  | succ n ih =>
      rw [Recorder.playForwardLoop]
      split
      · exact ⟨h.congr rfl rfl rfl rfl fun _ => rfl, .inl rfl⟩
      · rename_i hgo
        obtain ⟨hsound, hsaved⟩ := h.stepForward m hgo
        obtain ⟨hrest, hset⟩ := ih hsound (r.stepForward m).2
        refine ⟨hrest, .inr ?_⟩
        rcases hset with heq | hmem
        · exact heq ▸ hsaved
        · exact hmem

theorem playReverseLoop (h : r.Sound saved) (n : Nat) (m : Machine) (hpos : 1 ≤ r.stateCurrent) :
    (r.playReverseLoop n m).1.Sound saved ∧
      ((r.playReverseLoop n m).2.snapshot = m.snapshot ∨
        (r.playReverseLoop n m).2.snapshot ∈ saved) := by
  induction n generalizing r m with
  | zero => exact ⟨h, .inl rfl⟩
  | succ n ih =>
      rw [Recorder.playReverseLoop]
      split
      · exact ⟨h, .inl rfl⟩
      · rename_i hgo
        obtain ⟨hsound, hcurrent, hsaved⟩ := h.stepReverse m hpos hgo
        obtain ⟨hrest, hset⟩ := ih hsound (r.stepReverse m).2 hcurrent
        refine ⟨hrest, .inr ?_⟩
        rcases hset with heq | hmem
        · exact heq ▸ hsaved
        · exact hmem

end Sound

theorem sound_new {n : Nat} (hn : 1 ≤ n) : (new n).Sound [] := by
  have hpos : 0 < min n recordFramesMax := Nat.lt_min.mpr ⟨hn, by decide⟩
  exact ⟨⟨hpos, Nat.le_refl _, Nat.zero_le _⟩, .fresh rfl rfl rfl⟩

end Recorder

/-! ## Requests in any order -/

inductive RecorderReq where
  | reset
  | playForward (frames : Int)
  | playReverse (frames : Int)
  /-- `Update` behind an instruction that leaves the machine as given. -/
  | update (m : Machine)

/-- A recorder, its machine and what `StoreState` has saved so far. -/
structure Recording where
  recorder : Recorder
  machine : Machine
  saved : List Snapshot

namespace Recording

def handle (s : Recording) : RecorderReq → Recording
  | .reset => ⟨s.recorder.reset s.machine, s.machine, s.machine.snapshot :: s.saved⟩
  | .playForward frames =>
      let (recorder, machine) := s.recorder.playForward frames s.machine
      ⟨recorder, machine, s.saved⟩
  | .playReverse frames =>
      let (recorder, machine) := s.recorder.playReverse frames s.machine
      ⟨recorder, machine, s.saved⟩
  | .update m =>
      ⟨s.recorder.update m, m,
        ((s.recorder.dueFrame m).map UndoLog.Frame.saved).toList ++ s.saved⟩

def isPlay : RecorderReq → Bool
  | .playForward _ | .playReverse _ => true
  | .reset | .update _ => false

/-- A rewind is only requested once a state has been stored. -/
def Admits (s : Recording) : RecorderReq → Prop
  | .playReverse frames => frames ≤ 0 ∨ 1 ≤ s.recorder.stateCurrent
  | _ => True

/-- The play request leaves the machine as it is or sets a saved state. -/
def PlaysSaved (s : Recording) (req : RecorderReq) : Prop :=
  isPlay req = true → (s.handle req).machine.snapshot = s.machine.snapshot ∨
    (s.handle req).machine.snapshot ∈ s.saved

def Fresh (s : Recording) : Prop :=
  ∃ n m, 1 ≤ n ∧ s = ⟨.new n, m, []⟩

def Reachable : Recording → Prop :=
  Runs.Reachable Fresh fun s t => ∃ req, s.Admits req ∧ t = s.handle req

def Sound (s : Recording) : Prop := s.recorder.Sound s.saved

theorem sound_fresh {s : Recording} (h : s.Fresh) : s.Sound := by
  obtain ⟨n, m, hn, rfl⟩ := h
  exact Recorder.sound_new hn

theorem sound_handle {s : Recording} (h : s.Sound) (req : RecorderReq) (hadmits : s.Admits req) :
    (s.handle req).Sound ∧ s.PlaysSaved req := by
  cases req with
  | reset => exact ⟨Recorder.Sound.reset h s.machine, fun hplay => nomatch hplay⟩
  | update m => exact ⟨Recorder.Sound.update h m, fun hplay => nomatch hplay⟩
  | playForward frames =>
      obtain ⟨hsound, hset⟩ := Recorder.Sound.playForwardLoop h frames.toNat s.machine
      exact ⟨hsound, fun _ => hset⟩
  | playReverse frames =>
      rcases hadmits with hnone | hpos
      · have hzero : frames.toNat = 0 := Int.toNat_of_nonpos hnone
        have hnothing : s.recorder.playReverse frames s.machine = (s.recorder, s.machine) := by
          rw [Recorder.playReverse, hzero]
          rfl
        refine ⟨?_, fun _ => .inl ?_⟩
        · simp only [Sound, handle, hnothing]
          exact h
        · simp only [handle, hnothing]
      · obtain ⟨hsound, hset⟩ := Recorder.Sound.playReverseLoop h frames.toNat s.machine hpos
        exact ⟨hsound, fun _ => hset⟩

theorem Reachable.sound {s : Recording} (h : s.Reachable) : s.Sound := by
  refine @Runs.Reachable.invariant _ Fresh _ Sound (fun _ => sound_fresh) ?_ s h
  rintro s _ hs ⟨req, hadmits, rfl⟩
  exact (sound_handle hs req hadmits).1

/-- In a run that rewinds only behind a stored state, playback sets saved states only. -/
theorem Reachable.playsSaved {s : Recording} (h : s.Reachable) :
    s.recorder.InBounds ∧ ∀ req, s.Admits req → s.PlaysSaved req :=
  ⟨h.sound.toInBounds, fun req hadmits => (sound_handle h.sound req hadmits).2⟩

theorem playsSaved_reset :
    let s : Recording := ⟨.new 3, Recorder.machineAt 1 fun _ => 0, []⟩
    (s.handle .reset).recorder.InBounds ∧ (s.handle .reset).PlaysSaved (.playReverse 2) := by
  intro s
  have hfresh : s.Reachable := .start ⟨3, _, by decide, rfl⟩
  have hreset : (s.handle .reset).Reachable := hfresh.step ⟨.reset, trivial, rfl⟩
  obtain ⟨hbounds, hplays⟩ := hreset.playsSaved
  exact ⟨hbounds, hplays (.playReverse 2) (.inr (by decide))⟩

/-- Before anything is stored a rewind sets an empty state, or wraps the counter. -/
theorem playReverse_of_fresh :
    ∃ s : Recording, s.Fresh ∧ ¬ s.PlaysSaved (.playReverse 1) ∧
      ¬ (s.handle (.playReverse 2)).recorder.InBounds := by
  refine ⟨⟨.new 3, Recorder.machineAt 1 fun _ => 0, []⟩, ⟨3, _, by decide, rfl⟩, ?_, ?_⟩
  · intro hplays
    rcases hplays rfl with heq | hmem
    · have hcycles := congrArg (fun snapshot => snapshot.cpu.cc) heq
      revert hcycles
      decide
    · exact List.not_mem_nil hmem
  · intro hbounds
    have hwrapped := hbounds.current_le
    revert hwrapped
    decide

end Recording

end V6Emul
