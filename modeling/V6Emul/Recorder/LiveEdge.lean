import V6Emul.Recorder.Playback

/-!
# Playing forward at the live edge

At the live edge there is nothing to play forward.  `PlayForward` nevertheless
clears `m_lastRecord` there, and the flag then says that the machine stands at
the start of the current frame: the next `Update` drops the log of the frame,
and the next `PlayReverse` steps over it.
-/

namespace V6Emul

open UndoLog.Timeline (back forward)

namespace Recorder

/-! ## The flag -/

theorem lastRecord_playForwardLoop (n : Nat) (r : Recorder) (m : Machine)
    (h : r.lastRecord = false) : (r.playForwardLoop n m).1.lastRecord = false := by
  induction n generalizing r m with
  | zero => exact h
  | succ n ih =>
      rw [playForwardLoop]
      split
      · rfl
      · exact ih _ _ h

theorem lastRecord_stepReverse (r : Recorder) (m : Machine) :
    (r.stepReverse m).1.lastRecord = false := by
  unfold stepReverse
  cases hlast : r.lastRecord with
  | true => simp
  | false => simp

theorem lastRecord_playReverseLoop (n : Nat) (r : Recorder) (m : Machine)
    (h : r.lastRecord = false) : (r.playReverseLoop n m).1.lastRecord = false := by
  induction n generalizing r m with
  | zero => exact h
  | succ n ih =>
      rw [playReverseLoop]
      split
      · exact h
      · exact ih _ _ (lastRecord_stepReverse r m)

theorem lastRecord_playReverseLoop_succ (n : Nat) (r : Recorder) (m : Machine) :
    (r.playReverseLoop (n + 1) m).1.lastRecord = false := by
  rw [playReverseLoop]
  split
  · rename_i hstop
    exact hstop.2
  · exact lastRecord_playReverseLoop n _ _ (lastRecord_stepReverse r m)

theorem playForward_of_edge (r : Recorder) (m : Machine) {frames : Int} (h : 1 ≤ frames)
    (hedge : r.stateCurrent = r.stateRecorded) :
    r.playForward frames m = (r.park, m) := by
  obtain ⟨n, hn⟩ : ∃ n, frames.toNat = n + 1 := ⟨frames.toNat - 1, by omega⟩
  rw [playForward, hn, playForwardLoop, if_pos hedge, park]

theorem update_of_parked (r : Recorder) (m : Machine) (hlast : r.lastRecord = false)
    (hnum : r.frameNum = m.display.frameNum) :
    r.update m = r.relogged m.mem.debug.entries := by
  have hresumed : r.resumed = r.cleanMemUpdates := by
    rw [resumed, if_neg (by rw [hlast]; exact Bool.false_ne_true)]
  rw [update_eq, if_neg (fun h => h hnum), hresumed, storeMemoryDiff_cleanMemUpdates]

theorem playReverse_one (r : Recorder) (m : Machine) (hlast : r.lastRecord = true) :
    r.playReverse 1 m = (r.park,
      (m.restore r.state.saved).setRam (Ram.cells.undo m.mem.ram r.state.log)) := by
  have hgo : ¬(r.stateCurrent = 1 ∧ r.lastRecord = false) := by
    rw [hlast]
    exact fun h => Bool.false_ne_true h.2.symm
  change r.playReverseLoop 1 m = _
  rw [playReverseLoop, if_neg hgo, stepReverse, if_pos hlast]
  rfl

theorem playReverse_park (r : Recorder) (m : Machine) (frames : Int) (h : r.stateCurrent = 1) :
    r.park.playReverse frames m = (r.park, m) := by
  rw [playReverse]
  cases frames.toNat with
  | zero => rfl
  | succ n => rw [playReverseLoop, if_pos ⟨h, rfl⟩]

theorem current_update (r : Recorder) (m : Machine)
    (h : r.lastRecord = true → r.stateCurrent = r.stateRecorded) :
    (r.update m).stateCurrent = (r.update m).stateRecorded := by
  rw [update_eq]
  split
  · rfl
  · unfold resumed
    split
    · exact h ‹_›
    · rfl

end Recorder

/-! ## Sessions -/

/-- A recorder and its machine, and the timeline that the calls so far amount to. -/
structure Session where
  recorder : Recorder
  machine : Machine
  history : History

namespace Session

inductive Call : Session → Session → Prop where
  | update (s : Session) (m : Machine) : s.machine.Executes m →
      Call s ⟨s.recorder.update m, m, s.history.proceed s.recorder.recordFrames
        m.mem.debug.entries (s.recorder.dueFrame m)⟩
  | playForward (s : Session) (frames : Int) :
      Call s ⟨(s.recorder.playForward frames s.machine).1,
        (s.recorder.playForward frames s.machine).2, forward^[frames.toNat] s.history⟩
  | playReverse (s : Session) (frames : Int) :
      Call s ⟨(s.recorder.playReverse frames s.machine).1,
        (s.recorder.playReverse frames s.machine).2, back^[frames.toNat] s.history⟩

def AfterReset (s : Session) : Prop :=
  ∃ r m, 0 < r.recordFrames ∧ s = ⟨Recorder.reset r m, m, .start m.frame⟩

def Reachable : Session → Prop := Runs.Reachable AfterReset Call

/-- Parked at the start of a frame, the machine is as it was when that frame was stored. -/
def Exact (s : Session) : Prop :=
  s.history.live = false → s.machine.frame = s.history.cur.start

/--
At the live edge `PlayForward` changes no machine state, and whatever is called
afterwards, every frame start that is played to is restored.
-/
def KeepsHistory (s : Session) (frames : Int) : Prop :=
  (s.recorder.playForward frames s.machine).2 = s.machine ∧
    ∀ later, Runs.Reachable (· = ⟨(s.recorder.playForward frames s.machine).1,
      (s.recorder.playForward frames s.machine).2, s.history⟩) Call later → later.Exact

/-! ## The live edge -/

structure AtEdge (s : Session) : Prop where
  history : s.history.live = true
  last : s.history.pos + 1 = s.history.episodes.length
  current : s.recorder.stateCurrent = s.recorder.stateRecorded

def Guarded (s : Session) : Prop := s.recorder.lastRecord = true → s.AtEdge

theorem guarded_afterReset {s : Session} (h : s.AfterReset) : s.Guarded := by
  obtain ⟨r, m, -, rfl⟩ := h
  exact fun _ => ⟨rfl, rfl, rfl⟩

theorem guarded_call {s s' : Session} (h : s.Guarded) (hcall : Call s s') : s'.Guarded := by
  intro hlast
  cases hcall with
  | update m hexec =>
      refine ⟨UndoLog.Timeline.live_proceed _ _ _ _, UndoLog.Timeline.last_proceed _ _ _ _, ?_⟩
      exact s.recorder.current_update m fun hl => (h hl).current
  | playForward frames =>
      have hbefore : s.recorder.lastRecord = true := by
        cases hl : s.recorder.lastRecord with
        | true => rfl
        | false =>
            have hcleared := Recorder.lastRecord_playForwardLoop frames.toNat s.recorder s.machine hl
            exact absurd (hcleared.symm.trans hlast) Bool.false_ne_true
      have hedge := h hbefore
      by_cases hframes : 1 ≤ frames
      · simp only [s.recorder.playForward_of_edge s.machine hframes hedge.current] at hlast
        exact absurd hlast Bool.false_ne_true
      · have hzero : frames.toNat = 0 := by
          omega
        rw [Recorder.playForward, hzero]
        exact hedge
  | playReverse frames =>
      cases hframes : frames.toNat with
      | zero =>
          rw [Recorder.playReverse, hframes] at hlast ⊢
          exact h hlast
      | succ n =>
          have hcleared := s.recorder.lastRecord_playReverseLoop_succ n s.machine
          rw [Recorder.playReverse, hframes] at hlast
          exact absurd (hcleared.symm.trans hlast) Bool.false_ne_true

theorem Reachable.guarded {s : Session} (h : s.Reachable) : s.Guarded :=
  @Runs.Reachable.invariant _ AfterReset Call Guarded (fun _ => guarded_afterReset)
    (fun _ _ => guarded_call) s h

/-! ## What is lost -/

def idling (m : Machine) : Machine :=
  { m with mem := { m.mem with debug := { m.mem.debug with writeLen := 0 } } }

theorem executes_idling (m : Machine) : m.Executes (idling m) := ⟨trivial, rfl⟩

theorem call_update {r : Recorder} {m m' : Machine} {t : History} (hlive : t.live = true)
    (hlast : r.lastRecord = false) (hexec : m.Executes m')
    (hnum : r.frameNum = m'.display.frameNum) :
    Call ⟨r, m, t⟩ ⟨r.relogged m'.mem.debug.entries, m', t.record m'.mem.debug.entries⟩ := by
  have hdue : r.dueFrame m' = none := by
    rw [Recorder.dueFrame, if_neg (fun h => h hnum)]
  have hproceed : t.proceed r.recordFrames m'.mem.debug.entries none =
      t.record m'.mem.debug.entries := by
    unfold UndoLog.Timeline.proceed
    rw [if_pos hlive]
  have hcall := Call.update ⟨r, m, t⟩ m' hexec
  simp only [r.update_of_parked m' hlast hnum, hdue, hproceed] at hcall
  exact hcall

theorem call_playForward {r : Recorder} {m : Machine} {t : History}
    (hlast : t.pos + 1 = t.episodes.length) (hedge : r.stateCurrent = r.stateRecorded) :
    Call ⟨r, m, t⟩ ⟨r.park, m, t⟩ := by
  have hforward : t.forward = t := by
    rw [UndoLog.Timeline.forward, dif_neg (by omega)]
  have hcall := Call.playForward ⟨r, m, t⟩ 1
  simp only [r.playForward_of_edge m (Int.le_refl 1) hedge] at hcall
  change Call _ ⟨_, _, t.forward⟩ at hcall
  rwa [hforward] at hcall

theorem call_playReverse {r : Recorder} {m : Machine} {t : History} (hlast : r.lastRecord = true) :
    Call ⟨r, m, t⟩ ⟨r.park,
      (m.restore r.state.saved).setRam (Ram.cells.undo m.mem.ram r.state.log), t.back⟩ := by
  have hcall := Call.playReverse ⟨r, m, t⟩ 1
  simp only [r.playReverse_one m hlast] at hcall
  exact hcall

/--
For every state at the live edge: the next stores of the frame are lost when
`PlayForward` is called again behind them, and rewinding leaves them in RAM.
-/
theorem playForward_loses_history {s : Session} (hs : s.Reachable)
    (hlive : s.recorder.lastRecord = true) (frames : Int) (hframes : 1 ≤ frames) :
    ¬ s.KeepsHistory frames := by
  obtain ⟨hhist, hpos, hcurrent⟩ := hs.guarded hlive
  rintro ⟨-, hkeeps⟩
  obtain ⟨r, m, t⟩ := s
  simp only at hhist hpos hcurrent hlive hkeeps
  rw [r.playForward_of_edge m hframes hcurrent] at hkeeps
  let v : Byte := t.cur.start.mem.read 0 + 1
  have hrecord : ∀ (u : History) (log : List Store), u.pos + 1 = u.episodes.length →
      (u.record log).pos + 1 = (u.record log).episodes.length := by
    intro u log hu
    simp only [UndoLog.Timeline.record, UndoLog.Timeline.relog, List.length_append,
      List.length_take, List.length_singleton]
    omega
  have hcleared : Runs.Reachable (· = ⟨r.park, m, t⟩) Call ⟨r.park, m, t⟩ := .start rfl
  have hfirst := hcleared.step (call_update hhist rfl (Recorder.executes_storing m v r.frameNum) rfl)
  have hedge := hfirst.step (call_playForward (hrecord t _ hpos) rfl)
  have hdropped := hedge.step (call_update rfl rfl (executes_idling _) rfl)
  have hrewound := hdropped.step (call_playReverse rfl)
  have hexact := hkeeps _ hrewound (UndoLog.Timeline.live_back _)
  have hstart : ((t.record (Recorder.storing m v r.frameNum).mem.debug.entries).record
      []).back.cur.start = t.cur.start := by
    rw [UndoLog.Timeline.back_of_live rfl]
    change ((t.record _).record []).cur.start = _
    rw [UndoLog.Timeline.record, UndoLog.Timeline.cur_relog]
    change (t.record _).cur.start = _
    rw [UndoLog.Timeline.record, UndoLog.Timeline.cur_relog]
  have hlog : ((r.park.relogged (Recorder.storing m v r.frameNum).mem.debug.entries).park.relogged
      []).state.log = [] := by
    simp [Recorder.relogged, Recorder.setState, Recorder.state]
  have hmem : m.mem.ram.write 0 v = t.cur.start.mem := by
    have hundo := congrArg UndoLog.Frame.mem (hexact.trans hstart)
    change Ram.cells.undo (m.mem.ram.write 0 v) ((r.park.relogged _).park.relogged []).state.log =
      _ at hundo
    rwa [hlog] at hundo
  have hread : v = t.cur.start.mem.read 0 := by
    rw [← hmem]
    exact (Ram.read_write_self _ _ (by decide)).symm
  have hne : ∀ b : Byte, b + 1 ≠ b := by
    decide
  exact hne _ hread

def stored : Session :=
  let r := (Recorder.new 4).reset (Recorder.machineAt 0 fun _ => 0)
  let m := Recorder.storing (Recorder.machineAt 0 fun _ => 0) 1 0
  ⟨r.update m, m, (UndoLog.Timeline.start (Recorder.machineAt 0 fun _ => 0).frame).proceed 4
    m.mem.debug.entries none⟩

theorem stored_reachable : stored.Reachable := by
  have hreset : Reachable ⟨(Recorder.new 4).reset (Recorder.machineAt 0 fun _ => 0),
      Recorder.machineAt 0 fun _ => 0, .start (Recorder.machineAt 0 fun _ => 0).frame⟩ :=
    .start ⟨_, _, by decide, rfl⟩
  exact hreset.step (.update _ (Recorder.storing (Recorder.machineAt 0 fun _ => 0) 1 0)
    (Recorder.executes_storing _ _ _))

theorem playForward_loses_history_stored : ¬ stored.KeepsHistory 1 :=
  playForward_loses_history stored_reachable rfl 1 (by decide)

/-- `PlayForward(1)`, then `PlayReverse(1)`: the store of the current frame stays in RAM. -/
theorem playReverse_keeps_store :
    ∃ s : Session, s.Reachable ∧ s.recorder.lastRecord = true ∧ ¬ s.KeepsHistory 1 := by
  refine ⟨stored, stored_reachable, rfl, ?_⟩
  rintro ⟨-, hkeeps⟩
  rw [stored.recorder.playForward_of_edge stored.machine (by decide) (by decide)] at hkeeps
  have hcall := Call.playReverse ⟨stored.recorder.park, stored.machine, stored.history⟩ 1
  rw [stored.recorder.playReverse_park stored.machine 1 (by decide)] at hcall
  have hcleared : Runs.Reachable (· = ⟨stored.recorder.park, stored.machine, stored.history⟩) Call
      ⟨stored.recorder.park, stored.machine, stored.history⟩ := .start rfl
  have hexact := hkeeps _ (hcleared.step hcall) (UndoLog.Timeline.live_back stored.history)
  have hbyte : stored.machine.mem.ram.read 0 = (0 : Byte) :=
    congrArg (fun f => Ram.read f.mem 0) hexact
  revert hbyte
  decide

end Session

end V6Emul
