import V6Emul.Foundation.Runs
import V6Emul.Recorder.History

/-!
# Rewinding

From the live edge of a run, playing in reverse restores the frames that were
stored, newest first, and playing forward again retraces the same frames.
-/

namespace V6Emul

namespace Recorder

open UndoLog.Timeline (back forward)

/-! ## The loops on a timeline -/

namespace Represents

variable {r : Recorder} {m : Machine} {t : History} {base : Nat}

/-- Stepping back from `t` does not cross slot 0 of a ring where that goes wrong. -/
def SafeStep (r : Recorder) (base : Nat) (t : History) : Prop :=
  t.live = false → 0 < t.pos →
    r.recordFrames ∣ sizeT ∨ 0 < Ring.slot r.recordFrames base t.pos

theorem playReverseLoop (h : r.Represents m t base) (frames : Nat)
    (hsafe : ∀ j < frames, SafeStep r base (back^[j] t)) :
    ∃ f, r.playReverseLoop frames m = (r.place base (back^[frames] t), m.atFrame f) ∧
      (r.place base (back^[frames] t)).Represents (m.atFrame f) (back^[frames] t) base := by
  induction frames generalizing r m t with
  | zero =>
      refine ⟨m.frame, ?_, ?_⟩
      · rw [Function.iterate_zero_apply, h.place_eq]
        rfl
      · rw [Function.iterate_zero_apply, h.place_eq]
        exact h
  | succ frames ih =>
      by_cases hstop : t.live = false ∧ t.pos = 0
      · have hfix : back^[frames + 1] t = t :=
          Function.iterate_fixed (UndoLog.Timeline.back_of_oldest hstop.1 hstop.2) _
        have hbreak : r.stateCurrent = 1 ∧ r.lastRecord = false :=
          ⟨h.current.trans (by rw [hstop.2]), h.last.trans hstop.1⟩
        refine ⟨m.frame, ?_, ?_⟩
        · rw [hfix, h.place_eq, Recorder.playReverseLoop, if_pos hbreak]
          rfl
        · rw [hfix, h.place_eq]
          exact h
      · have hgo : ¬(r.stateCurrent = 1 ∧ r.lastRecord = false) := by
          rw [h.current, h.last]
          intro hboth
          exact hstop ⟨hboth.2, Nat.succ.inj hboth.1⟩
        have hmove : t.live = true ∨ 0 < t.pos := by
          cases hlive : t.live with
          | true => exact .inl rfl
          | false => exact .inr (Nat.pos_of_ne_zero fun hzero => hstop ⟨hlive, hzero⟩)
        have hslot : t.live = false → r.recordFrames ∣ sizeT ∨ 0 < r.stateIdx := by
          intro hparked
          rw [h.idx]
          exact hsafe 0 (Nat.succ_pos _) hparked
            (hmove.resolve_left (by rw [hparked]; exact Bool.false_ne_true))
        have hback : (r.place base t.back).Represents (m.atFrame t.back.cur.start) t.back base :=
          h.placed (UndoLog.Timeline.episodes_back t) h.linked.back
            (UndoLog.Timeline.at_of_parked (UndoLog.Timeline.live_back t) rfl rfl)
        obtain ⟨f, hloop, hrep⟩ := ih hback fun j hj => hsafe (j + 1) (Nat.succ_lt_succ hj)
        refine ⟨f, ?_, hrep⟩
        rw [Recorder.playReverseLoop, if_neg hgo, h.stepReverse_eq hmove hslot]
        exact hloop

theorem playForwardLoop (h : r.Represents m t base) (hparked : t.live = false) (frames : Nat)
    (hnext : t.pos + frames < t.episodes.length) :
    ∃ f, r.playForwardLoop frames m = (r.place base (forward^[frames] t), m.atFrame f) ∧
      (r.place base (forward^[frames] t)).Represents (m.atFrame f) (forward^[frames] t) base := by
  induction frames generalizing r m t with
  | zero =>
      refine ⟨m.frame, ?_, ?_⟩
      · rw [Function.iterate_zero_apply, h.place_eq]
        rfl
      · rw [Function.iterate_zero_apply, h.place_eq]
        exact h
  | succ frames ih =>
      have hlt : t.pos + 1 < t.episodes.length := by
        omega
      have hgo : r.stateCurrent ≠ r.stateRecorded := by
        rw [h.current, h.recorded]
        omega
      have hforward := UndoLog.Timeline.forward_of_lt hlt
      have hlive : t.forward.live = false := by
        rw [hforward]
        exact hparked
      have hstep : (r.place base t.forward).Represents (m.atFrame t.forward.cur.start)
          t.forward base :=
        h.placed (by rw [hforward]) (h.linked.forward hparked)
          (UndoLog.Timeline.at_of_parked hlive rfl rfl)
      have hrest : t.forward.pos + frames < t.forward.episodes.length := by
        rw [hforward]
        change t.pos + 1 + frames < t.episodes.length
        omega
      obtain ⟨f, hloop, hrep⟩ := ih hstep hlive hrest
      refine ⟨f, ?_, hrep⟩
      rw [Recorder.playForwardLoop, if_neg hgo, h.stepForward_eq hparked hlt]
      exact hloop

end Represents

/-! ## Runs of `Update` after `Reset` -/

/-- `frames` are the states that `StoreState` has taken in the run, newest first. -/
inductive UpdateRun : List Frame → Recorder → Machine → Prop where
  | reset (r : Recorder) (m : Machine) :
      0 < r.recordFrames → UpdateRun [m.frame] (r.reset m) m
  | update {frames : List Frame} {r : Recorder} {m : Machine} (m' : Machine) :
      UpdateRun frames r m → m.Executes m' →
      UpdateRun ((r.dueFrame m').toList ++ frames) (r.update m') m'

structure Retains (frames : List Frame) (r : Recorder) (m : Machine) (t : History) (base : Nat) :
    Prop where
  represents : r.Represents m t base
  live : t.live = true
  retained : t.frames = (frames.take r.recordFrames).reverse
  idx : r.stateIdx = frames.length % r.recordFrames

theorem recordFrames_update (r : Recorder) (m : Machine) :
    (r.update m).recordFrames = r.recordFrames := by
  have hresumed : r.resumed.recordFrames = r.recordFrames := by
    unfold resumed
    split <;> rfl
  rw [update_eq]
  split
  · exact hresumed
  · exact hresumed

theorem stateIdx_update (r : Recorder) (m : Machine) (h : r.stateIdx < r.recordFrames) :
    (r.update m).stateIdx =
      match r.dueFrame m with
      | none => r.stateIdx
      | some _ => (r.stateIdx + 1) % r.recordFrames := by
  have hresumed : r.resumed.stateIdx = r.stateIdx ∧ r.resumed.recordFrames = r.recordFrames := by
    unfold resumed
    split <;> exact ⟨rfl, rfl⟩
  have hnext : (r.resumed.storeMemoryDiff m).nextIdx = (r.stateIdx + 1) % r.recordFrames := by
    rw [← r.nextIdx_eq h]
    unfold nextIdx storeMemoryDiff setState
    simp only [hresumed.1, hresumed.2]
  rw [update_eq, dueFrame]
  split
  · exact hnext
  · exact hresumed.1

theorem UpdateRun.retains {frames : List Frame} {r : Recorder} {m : Machine}
    (h : UpdateRun frames r m) : ∃ t base, Retains frames r m t base := by
  induction h with
  | reset r m hpos =>
      refine ⟨_, 1, Represents.reset r m hpos, rfl, ?_, ?_⟩
      · have htake : [m.frame].take r.recordFrames = [m.frame] :=
          List.take_of_length_le hpos
        change [m.frame] = ([m.frame].take r.recordFrames).reverse
        rw [htake]
        rfl
      · change (0 + 1) % sizeT % r.recordFrames = 1 % r.recordFrames
        rw [Nat.mod_eq_of_lt (lt_sizeT (by omega))]
  | @update frames r m m' hrun hexec ih =>
      obtain ⟨t, base, hrep, hlive, hretained, hidx⟩ := ih
      obtain ⟨base', hnew⟩ := hrep.update hexec
      refine ⟨_, base', hnew, UndoLog.Timeline.live_proceed _ _ _ _, ?_, ?_⟩
      · rw [recordFrames_update, UndoLog.Timeline.frames_proceed t hlive (hrep.linked.last hlive)]
        cases hdue : r.dueFrame m' with
        | none => exact hretained
        | some f =>
            simp only [hretained]
            exact (Ring.take_cons_reverse f frames r.recordFrames hrep.recordFrames_pos).symm
      · rw [recordFrames_update, stateIdx_update r m' hrep.idx_lt]
        cases hdue : r.dueFrame m' with
        | none => exact hidx
        | some f =>
            change (r.stateIdx + 1) % r.recordFrames = (frames.length + 1) % r.recordFrames
            rw [hidx, Nat.mod_add_mod]

namespace Retains

variable {frames : List Frame} {r : Recorder} {m : Machine} {t : History} {base : Nat}

theorem length (h : Retains frames r m t base) :
    t.episodes.length = min frames.length r.recordFrames := by
  rw [← UndoLog.Timeline.length_frames, h.retained, List.length_reverse, List.length_take,
    Nat.min_comm]

theorem safeStep (h : Retains frames r m t base) {k : Nat}
    (hslot : r.recordFrames ∣ sizeT ∨ min k r.stateRecorded ≤ r.stateIdx + 1) :
    ∀ j < k, Represents.SafeStep r base (back^[j] t) := by
  intro j hj hparked hpos
  cases j with
  | zero =>
      rw [Function.iterate_zero_apply, h.live] at hparked
      contradiction
  | succ i =>
      refine hslot.imp_right ?_
      intro hroom
      rw [UndoLog.Timeline.pos_back_iterate t h.live] at hpos ⊢
      have hlast := h.represents.linked.last h.live
      rw [h.represents.recorded, h.represents.idx] at hroom
      rw [Ring.slot_sub h.represents.recordFrames_pos (by omega) (by omega)]
      omega

theorem start_back_iterate (h : Retains frames r m t base) {k : Nat} (hk : 1 ≤ k) :
    frames[min k (min frames.length r.recordFrames) - 1]? =
      some (back^[k] t).cur.start := by
  have hlast := h.represents.linked.last h.live
  have hlen := h.length
  have hframe := UndoLog.Timeline.frames_pos (back^[k] t)
  obtain ⟨i, rfl⟩ := Nat.exists_eq_add_of_le' hk
  rw [UndoLog.Timeline.frames_back_iterate, UndoLog.Timeline.pos_back_iterate t h.live,
    h.retained, List.getElem?_reverse (by rw [List.length_take]; omega), List.length_take] at hframe
  rw [← hframe, List.getElem?_take_of_lt (by omega)]
  congr 1
  omega

theorem playReverse (h : Retains frames r m t base) {k : Nat} (hk : 1 ≤ k)
    (hslot : r.recordFrames ∣ sizeT ∨ min k r.stateRecorded ≤ r.stateIdx + 1) :
    r.playReverse k m = (r.place base (back^[k] t), m.atFrame (back^[k] t).cur.start) ∧
      (r.place base (back^[k] t)).Represents (m.atFrame (back^[k] t).cur.start) (back^[k] t)
        base := by
  obtain ⟨f, hloop, hrep⟩ := h.represents.playReverseLoop k (h.safeStep hslot)
  have hparked : (back^[k] t).live = false := by
    obtain ⟨i, rfl⟩ := Nat.exists_eq_add_of_le' hk
    exact UndoLog.Timeline.live_back_iterate t i
  have hframe := hrep.atFrame_eq hparked
  rw [Machine.atFrame_atFrame] at hframe
  rw [← hframe] at hloop hrep
  rw [Recorder.playReverse, Int.toNat_natCast]
  exact ⟨hloop, hrep⟩

end Retains

/-- Rewinding by `k` restores the `k`-th newest frame, or the oldest one that is retained. -/
theorem UpdateRun.playReverse_restores {frames : List Frame} {r : Recorder} {m : Machine}
    (h : UpdateRun frames r m) (k : Nat) (hk : 1 ≤ k)
    (hslot : r.recordFrames ∣ sizeT ∨ min k r.stateRecorded ≤ r.stateIdx + 1) :
    frames[min k (min frames.length r.recordFrames) - 1]? =
      some (r.playReverse k m).2.frame := by
  obtain ⟨t, base, hretains⟩ := h.retains
  rw [hretains.start_back_iterate hk, (hretains.playReverse hk hslot).1]
  rfl

def machineAt (n : Nat) (ram : Ram) : Machine where
  cpu := { CpuState.zero with cc := n }
  mem := .ofRam ram
  io := .zero
  display := { DisplayUpdate.init with frameNum := n }

theorem machineAt_executes (n n' : Nat) (ram : Ram) :
    (machineAt n ram).Executes (machineAt n' ram) :=
  ⟨trivial, rfl⟩

def storing (m : Machine) (v : Byte) (frameNum : BitVec 64) : Machine :=
  { m with
    mem := { m.mem with
      ram := m.mem.ram.write 0 v
      debug := { m.mem.debug with
        writeLen := 1
        writeGlobalAddr := fun _ => 0
        write := fun _ => v
        beforeWrite := fun _ => m.mem.ram.read 0 } }
    display := { m.display with frameNum := frameNum } }

theorem executes_storing (m : Machine) (v : Byte) (frameNum : BitVec 64) :
    m.Executes (storing m v frameNum) := ⟨⟨rfl, trivial⟩, rfl⟩

def storeRun (recordFrames : Nat) : Nat → Recorder × Machine
  | 0 => ((new recordFrames).reset (machineAt 0 fun _ => 0), machineAt 0 fun _ => 0)
  | n + 1 =>
      let (r, m) := storeRun recordFrames n
      let m' := storing m (BitVec.ofNat 8 (n + 1)) (BitVec.ofNat 64 (n + 1))
      (r.update m', m')

/-- A witness: rewinding by 2 takes back the store of the last of three frames. -/
theorem UpdateRun.playReverse_restores_stores :
    let (r, m) := storeRun 4 3
    (r.playReverse 2 m).2.frame = (storeRun 4 2).2.frame ∧
      (storeRun 4 2).2.frame.mem.read 0 = 2 ∧ m.mem.ram.read 0 = 3 := by
  have hrun := (((UpdateRun.reset (new 4) (machineAt 0 fun _ => 0) (by decide)).update _
    (executes_storing _ 1 1)).update _ (executes_storing _ 2 2)).update _ (executes_storing _ 3 3)
  have hrestores := hrun.playReverse_restores 2 (by decide) (.inl (by decide))
  exact ⟨(Option.some.inj hrestores).symm, rfl, rfl⟩

/-- With three slots the second newest frame lies in slot 2, but the index stays at 0. -/
theorem UpdateRun.playReverse_crosses_slot_zero :
    ∃ frames r m, UpdateRun frames r m ∧ r.recordFrames = 3 ∧
      frames[min 2 (min frames.length r.recordFrames) - 1]? ≠
        some (r.playReverse 2 m).2.frame := by
  refine ⟨_, _, _, ((UpdateRun.reset (new 3) (machineAt 0 fun _ => 0) (by decide)).update _
    (machineAt_executes 0 1 _)).update _ (machineAt_executes 1 2 _), rfl, ?_⟩
  intro h
  have hcycles := congrArg (Option.map fun f => f.saved.cpu.cc) h
  revert hcycles
  decide

/-- Playing forward retraces the frames that were rewound. -/
theorem UpdateRun.playForward_playReverse {frames : List Frame} {r : Recorder} {m : Machine}
    (h : UpdateRun frames r m) (hring : frames.length < r.recordFrames) (j k : Nat) (hj : 1 ≤ j)
    (hmoves : j + k ≤ r.stateRecorded) :
    (r.playReverse ((j + k : Nat) : Int) m).1.playForward k
      (r.playReverse ((j + k : Nat) : Int) m).2 = r.playReverse j m := by
  obtain ⟨t, base, hretains⟩ := h.retains
  have hlive := hretains.live
  have hlast := hretains.represents.linked.last hlive
  have hrecorded := hretains.represents.recorded
  have hidx : r.stateIdx = r.stateRecorded := by
    rw [hretains.idx, hrecorded, hretains.length, Nat.mod_eq_of_lt hring]
    omega
  have hfar := hretains.playReverse (k := j + k) (by omega) (.inr (by omega))
  have hnear := hretains.playReverse hj (.inr (by omega))
  obtain ⟨i, rfl⟩ := Nat.exists_eq_add_of_le' hj
  have hparked : (back^[i + 1] t).live = false := UndoLog.Timeline.live_back_iterate t i
  have hpos : k ≤ (back^[i + 1] t).pos := by
    rw [UndoLog.Timeline.pos_back_iterate t hlive]
    omega
  have hreturn : forward^[k] (back^[i + 1 + k] t) = back^[i + 1] t := by
    rw [Nat.add_comm (i + 1) k, Function.iterate_add_apply]
    exact UndoLog.Timeline.forward_iterate_back_iterate hparked k hpos
  have hfarParked : (back^[i + 1 + k] t).live = false := by
    rw [Nat.add_right_comm]
    exact UndoLog.Timeline.live_back_iterate t (i + k)
  have hfarPos : (back^[i + 1 + k] t).pos = t.pos - (i + k) := by
    rw [Nat.add_right_comm]
    exact UndoLog.Timeline.pos_back_iterate t hlive (i + k)
  obtain ⟨f, hloop, hrep⟩ := hfar.2.playForwardLoop hfarParked k (by
    rw [hfarPos, UndoLog.Timeline.episodes_back_iterate]
    omega)
  rw [hreturn] at hloop hrep
  have hframe := hrep.atFrame_eq hparked
  rw [Machine.atFrame_atFrame] at hframe
  rw [hfar.1, hnear.1, playForward, Int.toNat_natCast, hloop, ← hframe]
  rfl

/-- A witness: two frames are rewound, and one of them is played again with its store. -/
theorem UpdateRun.playForward_playReverse_stores :
    let (r, m) := storeRun 4 2
    (r.playReverse 2 m).1.playForward 1 (r.playReverse 2 m).2 = r.playReverse 1 m ∧
      (r.playReverse 2 m).2.mem.ram.read 0 = 1 ∧ (r.playReverse 1 m).2.mem.ram.read 0 = 2 := by
  have hrun := ((UpdateRun.reset (new 4) (machineAt 0 fun _ => 0) (by decide)).update _
    (executes_storing _ 1 1)).update _ (executes_storing _ 2 2)
  exact ⟨hrun.playForward_playReverse (by decide) 1 1 (by decide) (by decide), by decide, by decide⟩

end Recorder

end V6Emul
