import V6Emul.Foundation.Ring
import V6Emul.Foundation.Timeline
import V6Emul.Recorder.Model

/-!
# The history a recorder holds

The ring, its three counters and the live flag hold a timeline of frames.  Every
operation of the recorder moves that timeline on by one of the operations of
`UndoLog.Timeline`, as long as it is not stepped back across slot 0 of a ring
whose size does not divide `2^64`, and not played forward at the live edge.
-/

namespace V6Emul

abbrev Frame := UndoLog.Frame Snapshot Ram

abbrev History := UndoLog.Timeline Snapshot Ram Nat Byte

def Machine.Executes (m m' : Machine) : Prop :=
  Ram.cells.Recorded m.mem.ram m'.mem.debug.entries ∧
    m'.mem.ram = Ram.cells.redo m.mem.ram m'.mem.debug.entries

def Machine.frame (m : Machine) : Frame := ⟨m.snapshot, m.mem.ram⟩

def Machine.atFrame (m : Machine) (f : Frame) : Machine := (m.setRam f.mem).restore f.saved

@[simp] theorem Machine.frame_atFrame (m : Machine) (f : Frame) : (m.atFrame f).frame = f := rfl

@[simp] theorem Machine.atFrame_frame (m : Machine) : m.atFrame m.frame = m := rfl

@[simp] theorem Machine.atFrame_atFrame (m : Machine) (f g : Frame) :
    (m.atFrame f).atFrame g = m.atFrame g := rfl

namespace Recorder

def hwState (e : UndoLog.Episode Snapshot Ram Nat Byte) : HwState := ⟨e.start.saved, e.log⟩

/-- The recorder with its counters moved to where `t` stands. -/
def place (r : Recorder) (base : Nat) (t : History) : Recorder :=
  { r with
    stateIdx := Ring.slot r.recordFrames base t.pos
    stateCurrent := t.pos + 1
    lastRecord := t.live }

def park (r : Recorder) : Recorder := { r with lastRecord := false }

def relogged (r : Recorder) (log : List Store) : Recorder :=
  { r with lastRecord := true, stateRecorded := r.stateCurrent }.setState
    { r.state with log := log }

theorem relogged_of_live (r : Recorder) (log : List Store) (hlast : r.lastRecord = true)
    (hedge : r.stateCurrent = r.stateRecorded) :
    r.relogged log = r.setState { r.state with log := log } := by
  have hsame : ∀ b n, b = r.lastRecord → n = r.stateRecorded →
      { r with lastRecord := b, stateRecorded := n } = r := by
    rintro _ _ rfl rfl
    rfl
  rw [relogged, hsame true r.stateCurrent hlast.symm hedge]

theorem storeMemoryDiff_cleanMemUpdates (r : Recorder) (m : Machine) :
    r.cleanMemUpdates.storeMemoryDiff m = r.relogged m.mem.debug.entries := by
  have hstate : r.cleanMemUpdates.state = { r.state with log := [] } := by
    simp [cleanMemUpdates, setState, state]
  rw [storeMemoryDiff, hstate, List.nil_append]
  simp [cleanMemUpdates, relogged, setState]

structure Represents (r : Recorder) (m : Machine) (t : History) (base : Nat) : Prop where
  idx : r.stateIdx = Ring.slot r.recordFrames base t.pos
  current : r.stateCurrent = t.pos + 1
  recorded : r.stateRecorded = t.episodes.length
  last : r.lastRecord = t.live
  window : Ring.Window r.states r.recordFrames base (t.episodes.map hwState)
  linked : t.WellLinked Ram.cells
  position : t.At Ram.cells m.snapshot m.mem.ram

theorem stepReverse_fst (r : Recorder) (m : Machine) :
    (r.stepReverse m).1 =
      if r.lastRecord then r.park
      else { r with
        stateIdx := r.prevIdx
        stateCurrent := (r.stateCurrent + sizeT - 1) % sizeT } := rfl

/-! ## Indices -/

theorem lt_sizeT {n : Nat} (h : n ≤ recordFramesMax + 1) : n < sizeT := by
  have hmax : recordFramesMax = 3000 := rfl
  have hsize : sizeT = 18446744073709551616 := by
    norm_num [sizeT]
  omega

theorem nextIdx_eq (r : Recorder) (h : r.stateIdx < r.recordFrames) :
    r.nextIdx = (r.stateIdx + 1) % r.recordFrames := by
  have hle := r.recordFrames_le
  rw [nextIdx, Nat.mod_eq_of_lt (lt_sizeT (by omega))]

theorem prevIdx_eq (r : Recorder) (h : r.stateIdx < r.recordFrames)
    (hslot : r.recordFrames ∣ sizeT ∨ 0 < r.stateIdx) :
    r.prevIdx = (r.stateIdx + r.recordFrames - 1) % r.recordFrames := by
  have hle := r.recordFrames_le
  have hsize : r.stateIdx < sizeT := lt_sizeT (by omega)
  rcases Nat.eq_zero_or_pos r.stateIdx with hzero | hpos
  · have hdvd : r.recordFrames ∣ sizeT := by
      rcases hslot with hdvd | hpos
      · exact hdvd
      · omega
    obtain ⟨c, hc⟩ := hdvd
    have hcpos : 0 < c := by
      rcases Nat.eq_zero_or_pos c with h0 | hcpos
      · rw [h0, Nat.mul_zero] at hc
        omega
      · exact hcpos
    have hsplit : sizeT - 1 = r.recordFrames * (c - 1) + (r.recordFrames - 1) := by
      rw [hc, Nat.mul_sub_one]
      have hle : r.recordFrames * 1 ≤ r.recordFrames * c := Nat.mul_le_mul_left _ hcpos
      omega
    have hmod : (sizeT - 1) % sizeT = sizeT - 1 := Nat.mod_eq_of_lt (by omega)
    rw [prevIdx, hzero, Nat.zero_add, Nat.zero_add, hmod, hsplit, Nat.mul_add_mod]
  · have hback : r.stateIdx + sizeT - 1 = r.stateIdx - 1 + sizeT := by
      omega
    have hring : r.stateIdx + r.recordFrames - 1 = r.stateIdx - 1 + r.recordFrames := by
      omega
    have hmod : (r.stateIdx - 1) % sizeT = r.stateIdx - 1 := Nat.mod_eq_of_lt (by omega)
    rw [prevIdx, hback, hring, Nat.add_mod_right, Nat.add_mod_right, hmod]

theorem prevIdx_lt (r : Recorder) (h : 0 < r.recordFrames) : r.prevIdx < r.recordFrames :=
  Nat.mod_lt _ h

theorem nextIdx_lt (r : Recorder) (h : 0 < r.recordFrames) : r.nextIdx < r.recordFrames :=
  Nat.mod_lt _ h

namespace Represents

variable {r : Recorder} {m : Machine} {t : History} {base : Nat}

theorem length_le (h : r.Represents m t base) : t.episodes.length ≤ r.recordFrames := by
  have hle := h.window.length_le
  rwa [List.length_map] at hle

theorem pos_lt_frames (h : r.Represents m t base) : t.pos < r.recordFrames :=
  Nat.lt_of_lt_of_le t.pos_lt h.length_le

theorem recordFrames_pos (h : r.Represents m t base) : 0 < r.recordFrames :=
  Nat.lt_of_le_of_lt (Nat.zero_le _) h.pos_lt_frames

theorem idx_lt (h : r.Represents m t base) : r.stateIdx < r.recordFrames := by
  rw [h.idx]
  exact Ring.slot_lt h.recordFrames_pos _ _

theorem nextIdx (h : r.Represents m t base) :
    r.nextIdx = Ring.slot r.recordFrames base (t.pos + 1) := by
  rw [r.nextIdx_eq h.idx_lt, h.idx, Ring.slot_succ]

theorem prevIdx (h : r.Represents m t base) (hpos : 0 < t.pos)
    (hslot : r.recordFrames ∣ sizeT ∨ 0 < r.stateIdx) :
    r.prevIdx = Ring.slot r.recordFrames base (t.pos - 1) := by
  have hsucc : t.pos - 1 + 1 = t.pos := Nat.sub_add_cancel hpos
  rw [r.prevIdx_eq h.idx_lt hslot, h.idx, ← hsucc, Ring.slot_pred h.recordFrames_pos]
  rfl

theorem states (h : r.Represents m t base) (i : Nat) (hi : i < t.episodes.length) :
    r.states (Ring.slot r.recordFrames base i) = hwState t.episodes[i] := by
  rw [h.window.get i (by rwa [List.length_map]), List.getElem_map]

theorem state (h : r.Represents m t base) : r.state = hwState t.cur := by
  rw [Recorder.state, h.idx]
  exact h.states t.pos t.pos_lt

theorem place_eq (h : r.Represents m t base) : r.place base t = r := by
  rw [place, ← h.idx, ← h.current, ← h.last]

theorem atFrame_eq (h : r.Represents m t base) (hparked : t.live = false) :
    m.atFrame t.cur.start = m := by
  obtain ⟨hsaved, hmem⟩ := h.position.of_parked hparked
  have hframe : t.cur.start = m.frame := by
    rw [Machine.frame, hsaved, hmem]
  rw [hframe, Machine.atFrame_frame]

theorem placed (h : r.Represents m t base) {u : History} (hepisodes : u.episodes = t.episodes)
    (hlinked : u.WellLinked Ram.cells) {m' : Machine}
    (hposition : u.At Ram.cells m'.snapshot m'.mem.ram) :
    (r.place base u).Represents m' u base := by
  refine ⟨rfl, rfl, ?_, rfl, ?_, hlinked, hposition⟩
  · rw [hepisodes]
    exact h.recorded
  · rw [hepisodes]
    exact h.window

/-! ## Playing one frame -/

theorem stepReverse_eq (h : r.Represents m t base) (hmove : t.live = true ∨ 0 < t.pos)
    (hslot : t.live = false → r.recordFrames ∣ sizeT ∨ 0 < r.stateIdx) :
    r.stepReverse m = (r.place base t.back, m.atFrame t.back.cur.start) := by
  have hplace :
      (if r.lastRecord then { r with lastRecord := false }
        else { r with
          stateIdx := r.prevIdx
          stateCurrent := (r.stateCurrent + sizeT - 1) % sizeT }) = r.place base t.back := by
    cases hlive : t.live with
    | true =>
        rw [UndoLog.Timeline.back_of_live hlive, if_pos (h.last.trans hlive), place, h.idx,
          h.current]
    | false =>
        have hpos : 0 < t.pos := hmove.resolve_left (by rw [hlive]; exact Bool.false_ne_true)
        have hlast : r.lastRecord = false := h.last.trans hlive
        have hsize : t.pos < sizeT := by
          have hle := r.recordFrames_le
          have hlt := h.pos_lt_frames
          exact lt_sizeT (by omega)
        have hcurrent : (r.stateCurrent + sizeT - 1) % sizeT = t.pos - 1 + 1 := by
          have hsum : t.pos + 1 + sizeT - 1 = t.pos + sizeT := by omega
          rw [h.current, hsum, Nat.add_mod_right, Nat.mod_eq_of_lt hsize]
          omega
        rw [UndoLog.Timeline.back_of_parked hlive, if_neg (by rw [hlast]; exact Bool.false_ne_true),
          place, h.prevIdx hpos (hslot hlive), hcurrent, hlast]
  have hback := h.linked.back
  have hat := h.linked.at_back h.position hmove
  have hrep : (r.place base t.back).Represents (m.atFrame t.back.cur.start) t.back base :=
    h.placed (UndoLog.Timeline.episodes_back t) hback
      (UndoLog.Timeline.at_of_parked (UndoLog.Timeline.live_back t) rfl rfl)
  have hmem : Ram.cells.undo m.mem.ram t.back.cur.log = t.back.cur.start.mem :=
    (hat.of_parked (UndoLog.Timeline.live_back t)).2
  rw [stepReverse, hplace, hrep.state]
  change (_, (m.restore t.back.cur.start.saved).setRam
    (Ram.cells.undo m.mem.ram t.back.cur.log)) = _
  rw [hmem]
  rfl

theorem stepForward_eq (h : r.Represents m t base) (hparked : t.live = false)
    (hnext : t.pos + 1 < t.episodes.length) :
    r.stepForward m = (r.place base t.forward, m.atFrame t.forward.cur.start) := by
  have hsize : t.pos + 1 + 1 < sizeT := by
    have hle := r.recordFrames_le
    have hlen := h.length_le
    exact lt_sizeT (by omega)
  have hplace : { r with
      stateIdx := r.nextIdx
      stateCurrent := (r.stateCurrent + 1) % sizeT } = r.place base t.forward := by
    rw [UndoLog.Timeline.forward_of_lt hnext, place, h.nextIdx, h.current, Nat.mod_eq_of_lt hsize,
      ← h.last]
  have hat := h.linked.at_forward h.position hparked hnext
  have hlive : t.forward.live = false := by
    rw [UndoLog.Timeline.forward_of_lt hnext]
    exact hparked
  have hmem : Ram.cells.redo m.mem.ram t.cur.log = t.forward.cur.start.mem :=
    (hat.of_parked hlive).2
  have hrep : (r.place base t.forward).Represents (m.atFrame t.forward.cur.start) t.forward base :=
    h.placed (by rw [UndoLog.Timeline.forward_of_lt hnext]) (h.linked.forward hparked)
      (UndoLog.Timeline.at_of_parked hlive rfl rfl)
  rw [stepForward, hplace, hrep.state, h.state]
  change (_, (m.setRam (Ram.cells.redo m.mem.ram t.cur.log)).restore
    t.forward.cur.start.saved) = _
  rw [hmem]
  rfl

/-! ## Recording -/

theorem reset (r : Recorder) (m : Machine) (hpos : 0 < r.recordFrames) :
    (r.reset m).Represents m (.start m.frame) 1 := by
  have hone : (0 + 1) % sizeT = 1 := Nat.mod_eq_of_lt (lt_sizeT (by omega))
  have hidx : (r.reset m).stateIdx = Ring.slot r.recordFrames 1 0 := by
    change (0 + 1) % sizeT % r.recordFrames = _
    rw [hone]
    rfl
  have hcurrent : (r.reset m).stateCurrent = 1 := by
    change min ((0 + 1) % sizeT) r.recordFrames = 1
    rw [hone]
    exact Nat.min_eq_left hpos
  have hempty : Ring.Window r.states r.recordFrames 1 [] :=
    ⟨Nat.zero_le _, fun i hi => absurd hi (Nat.not_lt_zero i)⟩
  refine ⟨hidx, hcurrent, hcurrent, rfl, ?_, .start _, UndoLog.Timeline.at_start _ _⟩
  have hwindow := hempty.push hpos ⟨m.snapshot, []⟩
  have hslot : Ring.slot r.recordFrames 1 ([] : List HwState).length = (r.reset m).stateIdx :=
    hidx.symm
  rw [hslot] at hwindow
  exact hwindow

theorem relog (h : r.Represents m t base) {log : List Store} {m' : Machine}
    (hlog : Ram.cells.Recorded t.cur.start.mem log)
    (hmem : m'.mem.ram = Ram.cells.redo t.cur.start.mem log) :
    (r.relogged log).Represents m' (t.relog log) base := by
  have hlen : (t.episodes.take t.pos).length = t.pos :=
    List.length_take_of_le (Nat.le_of_lt t.pos_lt)
  refine ⟨h.idx, h.current, ?_, rfl, ?_, h.linked.relog hlog, ?_⟩
  · change r.stateCurrent = (t.episodes.take t.pos ++ [_]).length
    rw [h.current, List.length_append, hlen, List.length_singleton]
  · have hpos : t.pos < ((t.episodes.map hwState).take (t.pos + 1)).length := by
      rw [List.length_take, List.length_map]
      have hlt := t.pos_lt
      omega
    have hset := (h.window.take (t.pos + 1)).set hpos ⟨t.cur.start.saved, log⟩
    have hepisodes : ((t.episodes.map hwState).take (t.pos + 1)).set t.pos
        ⟨t.cur.start.saved, log⟩ = (t.relog log).episodes.map hwState := by
      have htake : t.episodes.take (t.pos + 1) = t.episodes.take t.pos ++ [t.cur] :=
        List.take_succ_eq_append_getElem t.pos_lt
      rw [← List.map_take, htake, List.map_append, List.set_append_right _ _ (by simp),
        List.length_map, hlen, Nat.sub_self, UndoLog.Timeline.relog, List.map_append]
      rfl
    rw [← hepisodes, relogged, setState, h.state]
    simp only [h.idx]
    exact hset
  · refine UndoLog.Timeline.at_of_live rfl ?_
    rw [UndoLog.Timeline.cur_relog]
    exact hmem

theorem cleanMemUpdates (h : r.Represents m t base) (hparked : t.live = false) :
    r.cleanMemUpdates.Represents m t.resume base :=
  h.relog trivial (h.position.of_parked hparked).2

theorem storeMemoryDiff (h : r.Represents m t base) (hlive : t.live = true) {m' : Machine}
    (hexec : m.Executes m') :
    (r.storeMemoryDiff m').Represents m' (t.record m'.mem.debug.entries) base := by
  obtain ⟨hlog, hram⟩ := hexec
  have hmem := h.position.of_live hlive
  have hlast : r.lastRecord = true := h.last.trans hlive
  have hrecorded : r.stateCurrent = r.stateRecorded := by
    rw [h.current, h.recorded, h.linked.last hlive]
  have hrecordedLog : Ram.cells.Recorded t.cur.start.mem (t.cur.log ++ m'.mem.debug.entries) :=
    (Ram.cells.recorded_append _ _ _).mpr ⟨h.linked.recorded_cur, by rwa [← hmem]⟩
  have hredo : m'.mem.ram =
      Ram.cells.redo t.cur.start.mem (t.cur.log ++ m'.mem.debug.entries) := by
    rw [Ram.cells.redo_append, ← hmem, hram]
  have hrelog := h.relog hrecordedLog hredo
  rw [r.relogged_of_live _ hlast hrecorded] at hrelog
  have hlogs : r.state.log = t.cur.log := by
    rw [h.state]
    rfl
  rwa [Recorder.storeMemoryDiff, hlogs]

theorem storeState (h : r.Represents m t base) (hlive : t.live = true) :
    ∃ base', (r.storeState m).Represents m (t.advance r.recordFrames m.frame) base' := by
  have hlen := h.linked.last hlive
  have hle := h.length_le
  have hnext : r.nextIdx = Ring.slot r.recordFrames base (t.episodes.map hwState).length := by
    rw [h.nextIdx, List.length_map, hlen]
  have hsize : t.pos + 1 + 1 < sizeT := by
    have hmax := r.recordFrames_le
    exact lt_sizeT (by omega)
  have hlinked := h.linked.advance h.position hlive r.recordFrames m.snapshot
  have hposition := t.at_advance (c := Ram.cells) r.recordFrames m.snapshot m.snapshot m.mem.ram
  have hcurrent : (r.storeState m).stateCurrent = min (t.episodes.length + 1) r.recordFrames := by
    change min ((r.stateCurrent + 1) % sizeT) r.recordFrames = _
    rw [h.current, Nat.mod_eq_of_lt hsize, hlen]
  by_cases hroom : t.episodes.length < r.recordFrames
  · have hadvance : (t.advance r.recordFrames m.frame).episodes =
        t.episodes ++ [⟨m.frame, []⟩] := by
      simp only [UndoLog.Timeline.advance, if_pos hroom]
    have hpos : (t.advance r.recordFrames m.frame).pos = t.episodes.length := by
      simp only [UndoLog.Timeline.advance, if_pos hroom]
    have hmin : min (t.episodes.length + 1) r.recordFrames = t.episodes.length + 1 :=
      Nat.min_eq_left hroom
    refine ⟨base, ?_, ?_, ?_, h.last.trans hlive, ?_, hlinked, hposition⟩
    · rw [hpos, ← List.length_map (f := hwState)]
      exact hnext
    · rw [hcurrent, hmin, hpos]
    · rw [hadvance, List.length_append, List.length_singleton, ← hmin]
      exact hcurrent
    · have hpush := h.window.push (by rwa [List.length_map]) ⟨m.snapshot, []⟩
      rw [hadvance, List.map_append, Recorder.storeState]
      simp only [hnext]
      exact hpush
  · have hfull : t.episodes.length = r.recordFrames := by
      omega
    have hadvance : (t.advance r.recordFrames m.frame).episodes =
        t.episodes.tail ++ [⟨m.frame, []⟩] := by
      simp only [UndoLog.Timeline.advance, if_neg hroom]
    have hpos : (t.advance r.recordFrames m.frame).pos + 1 = t.episodes.length := by
      simp only [UndoLog.Timeline.advance, if_neg hroom, List.length_tail]
      omega
    have hmin : min (t.episodes.length + 1) r.recordFrames = t.episodes.length := by
      omega
    refine ⟨Ring.slot r.recordFrames base 1, ?_, ?_, ?_, h.last.trans hlive, ?_, hlinked,
      hposition⟩
    · change r.nextIdx = Ring.slot r.recordFrames (Ring.slot r.recordFrames base 1) _
      rw [Ring.slot_slot, Nat.add_comm, hpos, hnext, List.length_map]
    · rw [hcurrent, hmin, hpos]
    · rw [hadvance, List.length_append, List.length_singleton, List.length_tail]
      change (r.storeState m).stateCurrent = _
      rw [hcurrent, hmin]
      omega
    · have hpush := h.window.pushFull (by rwa [List.length_map]) h.recordFrames_pos
        ⟨m.snapshot, []⟩
      rw [hadvance, List.map_append, List.map_tail, Recorder.storeState]
      simp only [hnext]
      exact hpush

end Represents

def dueFrame (r : Recorder) (m : Machine) : Option Frame :=
  if r.frameNum ≠ m.display.frameNum then some m.frame else none

theorem storeMemoryDiff_of_empty (r : Recorder) {m : Machine} (h : m.mem.debug.writeLen = 0) :
    r.storeMemoryDiff m = r := by
  have hentries : m.mem.debug.entries = [] := by
    rw [Debug.entries, h]
    rfl
  rw [storeMemoryDiff, hentries, List.append_nil, setState, state]
  simp

def resumed (r : Recorder) : Recorder := if r.lastRecord then r else r.cleanMemUpdates

theorem update_eq (r : Recorder) (m : Machine) :
    r.update m =
      if r.frameNum ≠ m.display.frameNum then
        { (r.resumed.storeMemoryDiff m).storeState m with frameNum := m.display.frameNum }
      else r.resumed.storeMemoryDiff m := by
  have hdiff : (if m.mem.debug.writeLen = 0 then r.resumed else r.resumed.storeMemoryDiff m) =
      r.resumed.storeMemoryDiff m := by
    split
    · exact (r.resumed.storeMemoryDiff_of_empty ‹_›).symm
    · rfl
  have hnum : (r.resumed.storeMemoryDiff m).frameNum = r.frameNum := by
    unfold resumed
    split <;> rfl
  unfold update
  rw [← resumed]
  simp only [hdiff, hnum]

theorem Represents.resumed {r : Recorder} {m : Machine} {t : History} {base : Nat}
    (h : r.Represents m t base) :
    r.resumed.Represents m (if t.live then t else t.resume) base := by
  unfold Recorder.resumed
  cases hlive : t.live with
  | true =>
      rw [if_pos (h.last.trans hlive), if_pos rfl]
      exact h
  | false =>
      have hlast : r.lastRecord = false := h.last.trans hlive
      rw [if_neg (by rw [hlast]; exact Bool.false_ne_true), if_neg Bool.false_ne_true]
      exact h.cleanMemUpdates hlive

theorem Represents.update {r : Recorder} {m m' : Machine} {t : History} {base : Nat}
    (h : r.Represents m t base) (hexec : m.Executes m') :
    ∃ base', (r.update m').Represents m'
      (t.proceed r.recordFrames m'.mem.debug.entries (r.dueFrame m')) base' := by
  have hlive : (if t.live then t else t.resume).live = true := by
    split
    · assumption
    · rfl
  have hdiff := h.resumed.storeMemoryDiff hlive hexec
  rw [r.update_eq, dueFrame]
  by_cases hdue : r.frameNum ≠ m'.display.frameNum
  · rw [if_pos hdue, if_pos hdue]
    obtain ⟨base', hstore⟩ := hdiff.storeState rfl
    have hframes : (r.resumed.storeMemoryDiff m').recordFrames = r.recordFrames := by
      unfold Recorder.resumed
      split <;> rfl
    rw [hframes] at hstore
    exact ⟨base', hstore.idx, hstore.current, hstore.recorded, hstore.last, hstore.window,
      hstore.linked, hstore.position⟩
  · rw [if_neg hdue, if_neg hdue]
    exact ⟨base, hdiff⟩

end Recorder

end V6Emul
